import Flowchart.Proofs.Rebuilding
import Flowchart.Proofs.StyleLines

/-!
# Writing the style of a node

The style lines of a node are left alone if together they say the style, and are
replaced by one line otherwise, in the place of the first; a default style without
any line is not written.  In each case the lines then say the style up to the sign
of a zero width, and nothing else of what they say changes.

Main result: `writeNodeStyle_gives`.
-/

namespace Flowchart

open Edit Text

/-- The style lines of a node. -/
def Line.IsStyleOf (id : String) (kind : Line) : Prop :=
  ∃ properties, kind = .style id properties

theorem stylesNode_eq_true_iff
    {id line : String} :
    stylesNode id line = true ↔ (Line.classify line).IsStyleOf id := by
  unfold stylesNode Line.IsStyleOf
  cases Line.classify line with
  | style owner properties =>
      simp
  | _ =>
      simp

theorem Line.nodeProperties_append
    (id : String) (kinds kinds' : List Line) :
    nodeProperties id (kinds ++ kinds') = nodeProperties id kinds ++ nodeProperties id kinds' :=
  List.filterMap_append

theorem Line.nodeProperties_cons
    (id : String) (properties : Properties) (kinds : List Line) :
    nodeProperties id (.style id properties :: kinds) =
      properties :: nodeProperties id kinds := by
  simp [nodeProperties]

/-- Lines that say a style of a node, and otherwise what other lines say. -/
structure GivesStyle (id : String) (style : NodeStyle) (lines lines' : List String) : Prop where
  oneLine : ∀ line ∈ lines', IsOneLine line
  readable : IsReadable lines'
  same : LooksSame (Line.IsStyleOf id) (lines.map Line.classify) (lines'.map Line.classify)
  given : ∃ s, Line.styleOf (lines'.map Line.classify) id = .ok s ∧ s.agrees style = true

/-- One line with the properties of a style says it. -/
theorem styleOf_agrees_of_nodeProperties
    {kinds : List Line} {id : String} {style : NodeStyle}
    (h : Line.nodeProperties id kinds = [style.properties]) :
    ∃ s, Line.styleOf kinds id = .ok s ∧ s.agrees style = true := by
  obtain ⟨s, hs, hagrees⟩ := NodeStyle.overwrite_properties style {} rfl
  refine ⟨s, ?_, hagrees⟩
  unfold Line.styleOf NodeStyle.overwriteAll
  rw [h, List.foldlM_cons, hs]
  rfl

/-- A view that sees no style line of a node does not miss them. -/
theorem filterMap_filter_stylesNode
    {α : Type} {view : Line → Option α} {id : String}
    (h : ∀ kind : Line, kind.IsStyleOf id → view kind = none)
    (lines : List String) :
    ((lines.filter (!stylesNode id ·)).map Line.classify).filterMap view =
      (lines.map Line.classify).filterMap view := by
  rw [List.filterMap_map, List.filterMap_map]
  apply filterMap_filter_of_none
  intro line hline
  rw [Bool.not_eq_false'] at hline
  exact h _ (stylesNode_eq_true_iff.mp hline)

section Written

variable {e : Editor} {lines lines' : List String} {id indent : String} {style : NodeStyle}

/-- Lines that say the style already are left as they are. -/
theorem givesStyle_self
    {s : NodeStyle}
    (honeLine : ∀ line ∈ lines, IsOneLine line)
    (hreadable : IsReadable lines)
    (hs : Line.styleOf (lines.map Line.classify) id = .ok s)
    (hagrees : s.agrees style = true) :
    GivesStyle id style lines lines where
  oneLine := honeLine
  readable := hreadable
  same := fun _ _ _ _ _ => rfl
  given := ⟨s, hs, hagrees⟩

section NewLine

variable
  (hid : isIdentifier id.toList = true)
  (honeLine : ∀ line ∈ lines, IsOneLine line)
  (hreadable : IsReadable lines)
  (hindent : IsIndent indent)

include hid hindent

theorem isReadable_write
    (digits : Nat) :
    Line.classify (style.write id indent) ≠ .overlong digits := by
  rw [NodeStyle.classify_write hid style hindent.blank]
  exact fun h => nomatch h

include honeLine hreadable

/-- In the place of the first style line of a node a new one says the style. -/
theorem givesStyle_replace
    {first : String} {before rest : List String}
    (hlines : lines = before ++ first :: rest)
    (hbefore : ∀ line ∈ before, stylesNode id line = false)
    (hfirst : stylesNode id first = true) :
    GivesStyle id style lines
      (before ++ style.write id indent :: rest.filter (!stylesNode id ·)) := by
  have hkind := NodeStyle.classify_write hid style hindent.blank
  have hmem :
      ∀ line ∈ before ++ style.write id indent :: rest.filter (!stylesNode id ·),
        line = style.write id indent ∨ line ∈ lines := by
    intro line hline
    rw [hlines]
    rcases List.mem_append.mp hline with hline | hline
    · exact Or.inr (List.mem_append_left _ hline)
    · rcases List.mem_cons.mp hline with rfl | hline
      · exact Or.inl rfl
      · exact Or.inr
          (List.mem_append_right _ (List.mem_cons_of_mem _ (List.mem_of_mem_filter hline)))
  constructor
  · intro line hline
    rcases hmem line hline with rfl | hline
    · exact NodeStyle.isOneLine_write hid style hindent.oneLine
    · exact honeLine line hline
  · intro line hline
    rcases hmem line hline with rfl | hline
    · exact isReadable_write hid hindent
    · exact hreadable line hline
  · intro α view _ _ hview
    have hnew : view (Line.classify (style.write id indent)) = none :=
      hview _ ⟨_, hkind⟩
    have hold : view (Line.classify first) = none :=
      hview _ (stylesNode_eq_true_iff.mp hfirst)
    rw [hlines]
    simp only [List.map_append, List.map_cons, List.filterMap_append]
    rw [List.filterMap_cons_none hnew, List.filterMap_cons_none hold,
      filterMap_filter_stylesNode hview]
  · apply styleOf_agrees_of_nodeProperties
    have hnone :
        ∀ ls : List String, (∀ line ∈ ls, stylesNode id line = false) →
          Line.nodeProperties id (ls.map Line.classify) = [] := by
      intro ls hls
      apply nodeProperties_eq_nil
      rw [List.any_eq_false]
      intro line hline
      rw [hls line hline]
      exact Bool.false_ne_true
    have hrest :
        ∀ line ∈ rest.filter (!stylesNode id ·), stylesNode id line = false := by
      intro line hline
      have hkeep := (List.mem_filter.mp hline).2
      rwa [Bool.not_eq_true'] at hkeep
    have hbefore := hnone before hbefore
    have hrest := hnone _ hrest
    rw [List.map_append, Line.nodeProperties_append, hbefore, List.map_cons, hkind,
      Line.nodeProperties_cons, hrest]
    rfl

/-- Without a style line of a node a new one is added and says the style. -/
theorem givesStyle_append
    (hnone : lines.any (stylesNode id) = false) :
    GivesStyle id style lines (append lines (style.write id indent)) := by
  have hkind := NodeStyle.classify_write hid style hindent.blank
  have hextends := extends_append lines (style.write id indent)
  constructor
  · intro line hline
    rcases mem_append_iff.mp hline with rfl | hline
    · exact NodeStyle.isOneLine_write hid style hindent.oneLine
    · exact honeLine line hline
  · intro line hline
    rcases mem_append_iff.mp hline with rfl | hline
    · exact isReadable_write hid hindent
    · exact hreadable line hline
  · exact hextends.looksSame ⟨_, hkind⟩
  · apply styleOf_agrees_of_nodeProperties
    rw [hextends.nodeProperties, nodeProperties_eq_nil hnone, hkind, Line.nodeProperties_cons]
    rfl

end NewLine

/-- Writing a style leaves all lines, writes the first style line anew, or adds a first one. -/
theorem writeNodeStyle_cases
    (h : e.writeNodeStyle lines id style = .ok lines') :
    IsReadable lines ∧
      ((lines' = lines ∧
          ∃ s, Line.styleOf (lines.map Line.classify) id = .ok s ∧ s.agrees style = true) ∨
        (∃ before first rest,
          lines = before ++ first :: rest ∧
          (∀ line ∈ before, stylesNode id line = false) ∧
          stylesNode id first = true ∧
          lines' =
            before ++ style.write id (indentOf first) :: rest.filter (!stylesNode id ·)) ∨
        lines.any (stylesNode id) = false ∧ lines' = append lines (style.write id e.indent)) := by
  unfold Editor.writeNodeStyle at h
  obtain ⟨_, hreadable, h⟩ := bind_eq_ok_iff.mp h
  refine ⟨checkReadable_eq_ok_iff.mp hreadable, ?_⟩
  cases hany : lines.any (stylesNode id) with
  | true =>
      rw [hany, if_pos rfl] at h
      obtain ⟨s, hs, h⟩ := bind_eq_ok_iff.mp h
      cases hagrees : s.agrees style with
      | true =>
          rw [hagrees] at h
          cases h
          exact Or.inl ⟨rfl, s, hs, hagrees⟩
      | false =>
          rw [hagrees] at h
          have hsplit :
              lines.takeWhile (!stylesNode id ·) ++ lines.dropWhile (!stylesNode id ·) = lines :=
            List.takeWhile_append_dropWhile
          have hbefore :
              ∀ line ∈ lines.takeWhile (!stylesNode id ·), stylesNode id line = false := by
            intro line hline
            have hnot := List.all_eq_true.mp List.all_takeWhile line hline
            rwa [Bool.not_eq_true'] at hnot
          cases hdrop : lines.dropWhile (!stylesNode id ·) with
          | nil =>
              rw [hdrop, List.append_nil] at hsplit
              obtain ⟨line, hline, hstyles⟩ := List.any_eq_true.mp hany
              rw [← hsplit] at hline
              rw [hbefore line hline] at hstyles
              cases hstyles
          | cons first rest =>
              rw [hdrop] at h hsplit
              cases h
              have hfirst : stylesNode id first = true := by
                have hhead := List.head?_dropWhile_not (!stylesNode id ·) lines
                rw [hdrop] at hhead
                simpa using hhead
              exact Or.inr (Or.inl ⟨_, first, rest, hsplit.symm, hbefore, hfirst, rfl⟩)
  | false =>
      rw [hany] at h
      cases hdefault : style.isDefault with
      | true =>
          rw [hdefault] at h
          cases h
          exact Or.inl ⟨rfl, _, Line.styleOf_of_nodeProperties (nodeProperties_eq_nil hany),
            NodeStyle.agrees_symm hdefault⟩
      | false =>
          rw [hdefault] at h
          cases h
          exact Or.inr (Or.inr ⟨rfl, rfl⟩)

/-- After a style was written the lines say it and otherwise what they said before. -/
theorem writeNodeStyle_gives
    (he : IsIndent e.indent)
    (hid : isIdentifier id.toList = true)
    (honeLine : ∀ line ∈ lines, IsOneLine line)
    (h : e.writeNodeStyle lines id style = .ok lines') :
    GivesStyle id style lines lines' := by
  obtain ⟨hreadable, hcases⟩ := writeNodeStyle_cases h
  rcases hcases with ⟨rfl, s, hs, hagrees⟩ | ⟨before, first, rest, hsplit, hbefore, hfirst, rfl⟩ |
    ⟨hnone, rfl⟩
  · exact givesStyle_self honeLine hreadable hs hagrees
  · have hfirstLine : IsOneLine first := honeLine first (by simp [hsplit])
    exact givesStyle_replace hid honeLine hreadable (isIndent_indentOf_chars hfirstLine) hsplit
      hbefore hfirst
  · exact givesStyle_append hid honeLine hreadable he hnone

end Written

end Flowchart
