import Flowchart.Edit
import Flowchart.Proofs.ModelReading

/-!
# Lines and models of an edit

An edit adds its line before the blank lines at the end, and no reading sees blank
lines or a header that was put into a blank text: what is read of the new lines is
what was read before, with the new line last.  The model is rebuilt from nodes that
are kept as they are and from nodes of new ids, which take the style of the text.

Main results: `extends_append`, `reads_completeNodes` and `reads_rebuild`.
-/

namespace Flowchart

open Edit

section AddedLines

/-- The lines after an addition, and those of them that are not blank. -/
theorem append_eq
    (lines : List String) (line : String) :
    ∃ front blanks,
      lines = front ++ blanks ∧ append lines line = front ++ line :: blanks ∧
        ∀ blank ∈ blanks, isBlankLine blank = true := by
  unfold append
  split
  · exact ⟨lines, [], by simp, by simp, by simp⟩
  · have hsplit :
        lines.reverse.takeWhile isBlankLine ++ lines.reverse.dropWhile isBlankLine =
          lines.reverse :=
      List.takeWhile_append_dropWhile
    have hlines := congrArg List.reverse hsplit
    rw [List.reverse_append, List.reverse_reverse] at hlines
    generalize (lines.reverse.dropWhile isBlankLine).reverse = front at hlines
    have hblanks :
        ∀ blank ∈ (lines.reverse.takeWhile isBlankLine).reverse, isBlankLine blank = true := by
      intro blank hblank
      rw [List.mem_reverse] at hblank
      exact List.all_eq_true.mp List.all_takeWhile blank hblank
    generalize (lines.reverse.takeWhile isBlankLine).reverse = blanks at hlines hblanks
    refine ⟨front, blanks, hlines.symm, ?_, hblanks⟩
    dsimp only
    rw [← hlines, List.length_append, Nat.add_sub_cancel, List.take_left]

theorem mem_append_iff
    {lines : List String} {line other : String} :
    other ∈ append lines line ↔ other = line ∨ other ∈ lines := by
  obtain ⟨front, blanks, hlines, happend, _⟩ := append_eq lines line
  rw [happend, hlines]
  simp only [List.mem_append, List.mem_cons]
  tauto

/--
Some lines show what others show, and then one more.  Nothing is seen of headers
and of lines that are kept as they are.
-/
def Extends (kinds kinds' : List Line) (kind : Line) : Prop :=
  ∀ (α : Type) (view : Line → Option α),
    (∀ text, view (.other text) = none) →
    (∀ keyword direction, view (.header keyword direction) = none) →
    kinds'.filterMap view = kinds.filterMap view ++ (view kind).toList

theorem filterMap_blanks
    {α : Type} {view : Line → Option α} {blanks : List String}
    (hother : ∀ text, view (.other text) = none)
    (h : ∀ blank ∈ blanks, isBlankLine blank = true) :
    (blanks.map Line.classify).filterMap view = [] := by
  rw [List.filterMap_map, List.filterMap_eq_nil_iff]
  intro blank hblank
  rw [Function.comp_apply, Line.classify_of_isBlankLine (h blank hblank)]
  exact hother blank

/-- An added line is seen last. -/
theorem extends_append
    (lines : List String) (line : String) :
    Extends (lines.map Line.classify) ((append lines line).map Line.classify)
      (Line.classify line) := by
  intro α view hother _
  obtain ⟨front, blanks, hlines, happend, hblanks⟩ := append_eq lines line
  rw [happend, hlines]
  simp only [List.map_append, List.map_cons, List.filterMap_append,
    filterMap_blanks hother hblanks, List.append_nil]
  congr 1
  cases hline : view (Line.classify line) with
  | none =>
      rw [List.filterMap_cons_none hline]
      exact filterMap_blanks hother hblanks
  | some a =>
      rw [List.filterMap_cons_some hline, filterMap_blanks hother hblanks]
      rfl

/-- A blank text and the header that takes its place look the same. -/
theorem extends_startLines
    {e : Editor} {keyword : String} {direction : Option String}
    (hheader : Line.classify e.header = .header keyword direction)
    (d : Diagram) (text : String) :
    Extends (d.lines.map Line.classify) ((e.startLines d).map Line.classify)
      (.other text) := by
  intro α view hother hview
  unfold Editor.startLines
  rw [hother, Option.toList_none, List.append_nil]
  split
  · rename_i hempty
    rw [filterMap_blanks hother (List.all_eq_true.mp hempty), List.map_singleton,
      List.filterMap_cons_none (by rw [hheader]; exact hview keyword direction)]
    rfl
  · rfl

end AddedLines

/--
Some lines show what others show to every view that sees no line of a hidden kind,
and neither headers nor lines that are kept as they are.
-/
def LooksSame (hidden : Line → Prop) (kinds kinds' : List Line) : Prop :=
  ∀ (α : Type) (view : Line → Option α),
    (∀ text, view (.other text) = none) →
    (∀ keyword direction, view (.header keyword direction) = none) →
    (∀ kind, hidden kind → view kind = none) →
    kinds'.filterMap view = kinds.filterMap view

/-- A view that sees nothing of what is left out does not miss it. -/
theorem filterMap_filter_of_none
    {α β : Type} {view : α → Option β} {keep : α → Bool}
    (h : ∀ x, keep x = false → view x = none)
    (xs : List α) :
    (xs.filter keep).filterMap view = xs.filterMap view := by
  rw [List.filterMap_filter]
  congr 1
  funext x
  cases hkeep : keep x with
  | true =>
      rfl
  | false =>
      exact (h x hkeep).symm

/-- A line that is added is the only one that is seen anew. -/
theorem Extends.looksSame
    {kinds kinds' : List Line} {kind : Line} {hidden : Line → Prop}
    (h : Extends kinds kinds' kind)
    (hkind : hidden kind) :
    LooksSame hidden kinds kinds' := by
  intro α view hother hheader hhidden
  rw [h α view hother hheader, hhidden kind hkind]
  exact List.append_nil _

section LooksSame

variable {hidden : Line → Prop} {kinds kinds' : List Line} (h : LooksSame hidden kinds kinds')

theorem view_eq_none
    {α : Type} {view : Line → Option α} {kind : Line}
    (hview : [kind].filterMap view = []) :
    view kind = none :=
  List.filterMap_eq_nil_iff.mp hview kind (List.mem_singleton_self kind)

include h

theorem LooksSame.declarations_eq
    (hhidden : ∀ kind, hidden kind → Reading.declarations [kind] = []) :
    Reading.declarations kinds' = Reading.declarations kinds :=
  h Node _ (fun _ => rfl) (fun _ _ => rfl) fun kind hkind => view_eq_none (hhidden kind hkind)

theorem LooksSame.declaredNodes_eq
    (hhidden : ∀ kind, hidden kind → Reading.declarations [kind] = []) :
    Reading.declaredNodes kinds' = Reading.declaredNodes kinds := by
  rw [Reading.declaredNodes_eq, Reading.declaredNodes_eq, h.declarations_eq hhidden]

theorem LooksSame.edges_eq
    (hhidden : ∀ kind, hidden kind → Line.edges [kind] = []) :
    Line.edges kinds' = Line.edges kinds :=
  h EdgeLine _ (fun _ => rfl) (fun _ _ => rfl) fun kind hkind => view_eq_none (hhidden kind hkind)

theorem LooksSame.edgeProperties_eq
    {rank : Nat}
    (hhidden : ∀ kind, hidden kind → Line.edgeProperties rank [kind] = []) :
    Line.edgeProperties rank kinds' = Line.edgeProperties rank kinds :=
  h Properties _ (fun _ => rfl) (fun _ _ => rfl) fun kind hkind =>
    view_eq_none (hhidden kind hkind)

theorem LooksSame.modelEdges_eq
    (hedges : ∀ kind, hidden kind → Line.edges [kind] = [])
    (hstyles : ∀ kind, hidden kind → ∀ rank, Line.edgeProperties rank [kind] = []) :
    Reading.modelEdges kinds' = Reading.modelEdges kinds := by
  refine Reading.modelEdges_congr (h.edges_eq hedges) ?_
  intro rank
  exact h.edgeProperties_eq fun kind hkind => hstyles kind hkind rank

theorem LooksSame.nodeProperties_eq
    {id : String}
    (hhidden : ∀ kind, hidden kind → Line.nodeProperties id [kind] = []) :
    Line.nodeProperties id kinds' = Line.nodeProperties id kinds :=
  h Properties _ (fun _ => rfl) (fun _ _ => rfl) fun kind hkind =>
    view_eq_none (hhidden kind hkind)

theorem LooksSame.styleOf_eq
    {id : String}
    (hhidden : ∀ kind, hidden kind → Line.nodeProperties id [kind] = []) :
    Line.styleOf kinds' id = Line.styleOf kinds id :=
  Line.styleOf_congr (h.nodeProperties_eq hhidden)

end LooksSame

section Extends

variable {kinds kinds' kinds'' : List Line} {kind : Line}

theorem Extends.trans
    {text : String}
    (h : Extends kinds kinds' (.other text))
    (h' : Extends kinds' kinds'' kind) :
    Extends kinds kinds'' kind := by
  intro α view hother hheader
  rw [h' α view hother hheader, h α view hother hheader, hother]
  simp

theorem Extends.declarations
    (h : Extends kinds kinds' kind) :
    Reading.declarations kinds' =
      Reading.declarations kinds ++ Reading.declarations [kind] := by
  unfold Reading.declarations
  rw [h Node]
  · congr 1
  · exact fun _ => rfl
  · exact fun _ _ => rfl

theorem Extends.edges
    (h : Extends kinds kinds' kind) :
    Line.edges kinds' = Line.edges kinds ++ Line.edges [kind] := by
  unfold Line.edges
  rw [h EdgeLine]
  · congr 1
  · exact fun _ => rfl
  · exact fun _ _ => rfl

theorem Extends.nodeProperties
    (h : Extends kinds kinds' kind) (id : String) :
    Line.nodeProperties id kinds' =
      Line.nodeProperties id kinds ++ Line.nodeProperties id [kind] := by
  unfold Line.nodeProperties
  rw [h Properties]
  · congr 1
  · exact fun _ => rfl
  · exact fun _ _ => rfl

theorem Extends.edgeProperties
    (h : Extends kinds kinds' kind) (rank : Nat) :
    Line.edgeProperties rank kinds' =
      Line.edgeProperties rank kinds ++ Line.edgeProperties rank [kind] := by
  unfold Line.edgeProperties
  rw [h Properties]
  · congr 1
  · exact fun _ => rfl
  · exact fun _ _ => rfl

theorem Extends.declaredNodes_eq
    (h : Extends kinds kinds' kind)
    (hkind : Reading.declarations [kind] = []) :
    Reading.declaredNodes kinds' = Reading.declaredNodes kinds :=
  (h.looksSame (Eq.refl kind)).declaredNodes_eq (by rintro _ rfl; exact hkind)

/-- A node line of a new id declares a further node. -/
theorem Extends.declaredNodes_append
    {id body : String}
    (h : Extends kinds kinds' (.node id body))
    (hid : id ∉ (Reading.declaredNodes kinds).map (·.id)) :
    Reading.declaredNodes kinds' =
      Reading.declaredNodes kinds ++ [Reading.declaredNode id body] := by
  rw [Reading.declaredNodes_eq] at hid
  rw [Reading.declaredNodes_eq, Reading.declaredNodes_eq, h.declarations, List.foldl_append]
  exact Reading.declare_of_not_mem hid

theorem Extends.modelEdges_eq
    (h : Extends kinds kinds' kind)
    (hedges : Line.edges [kind] = [])
    (hstyles : ∀ rank, Line.edgeProperties rank [kind] = []) :
    Reading.modelEdges kinds' = Reading.modelEdges kinds :=
  (h.looksSame (Eq.refl kind)).modelEdges_eq (by rintro _ rfl; exact hedges)
    (by rintro _ rfl; exact hstyles)

theorem Extends.styleOf_eq
    {id : String}
    (h : Extends kinds kinds' kind)
    (hkind : Line.nodeProperties id [kind] = []) :
    Line.styleOf kinds' id = Line.styleOf kinds id :=
  (h.looksSame (Eq.refl kind)).styleOf_eq (by rintro _ rfl; exact hkind)

end Extends

section NewIds

theorem nodeProperties_eq_nil
    {lines : List String} {id : String}
    (h : lines.any (stylesNode id) = false) :
    Line.nodeProperties id (lines.map Line.classify) = [] := by
  unfold Line.nodeProperties
  rw [List.filterMap_map, List.filterMap_eq_nil_iff]
  intro line hline
  have hstyles : stylesNode id line = false := by
    rw [Bool.eq_false_iff]
    intro hstyles
    rw [List.any_eq_false] at h
    exact h line hline hstyles
  unfold stylesNode at hstyles
  rw [Function.comp_apply]
  cases hkind : Line.classify line with
  | style owner properties =>
      rw [hkind] at hstyles
      have howner : (owner == id) = false := hstyles
      simp [howner]
  | _ =>
      rfl

/-- A new node takes the style that the lines give to its id. -/
theorem styled_eq_ok_iff
    {lines : List String} {n n' : Node}
    (hstyle : n.style = {}) :
    styled lines n = .ok n' ↔
      IsReadable lines ∧ n'.plain = n.plain ∧
        Line.styleOf (lines.map Line.classify) n.id = .ok n'.style := by
  have hplain : n.plain = n := by
    unfold Node.plain
    rw [← hstyle]
  unfold styled
  rw [bind_eq_ok_iff, hplain]
  constructor
  · rintro ⟨_, hreadable, h⟩
    refine ⟨checkReadable_eq_ok_iff.mp hreadable, ?_⟩
    split at h
    · obtain ⟨s, hs, hn⟩ := bind_eq_ok_iff.mp h
      cases hn
      exact ⟨hplain, hs⟩
    · rename_i hany
      cases h
      refine ⟨hplain, ?_⟩
      rw [hstyle]
      exact Line.styleOf_of_nodeProperties (nodeProperties_eq_nil (Bool.eq_false_iff.mpr hany))
  · rintro ⟨hreadable, rfl, hs⟩
    refine ⟨(), checkReadable_eq_ok_iff.mpr hreadable, ?_⟩
    split
    · exact bind_eq_ok_iff.mpr ⟨n'.style, hs, rfl⟩
    · rename_i hany
      have hnone := nodeProperties_eq_nil (Bool.eq_false_iff.mpr hany)
      rw [Line.styleOf_of_nodeProperties hnone] at hs
      have hdefault : n'.style = {} := (Except.ok.inj hs).symm
      have hself : n'.plain = n' := by
        unfold Node.plain
        rw [← hdefault]
      rw [hself]
      rfl

end NewIds

section RebuiltModels

/-- A node of a known id is kept, any other takes its style of the lines. -/
def keepOrStyle (previous : List Node) (lines : List String) (n : Node) : Except Fault Node :=
  if previous.any (·.id == n.id) then .ok n else styled lines n

theorem any_id_iff
    {nodes : List Node} {id : String} :
    nodes.any (·.id == id) = true ↔ id ∈ nodes.map (·.id) := by
  simp only [List.any_eq_true, beq_iff_eq, List.mem_map]

theorem keepOrStyle_of_mem
    {previous : List Node} {n : Node}
    (h : n.id ∈ previous.map (·.id))
    (lines : List String) :
    keepOrStyle previous lines n = .ok n := by
  unfold keepOrStyle
  rw [any_id_iff.mpr h]
  rfl

theorem keepOrStyle_of_not_mem
    {previous : List Node} {n : Node}
    (h : n.id ∉ previous.map (·.id))
    (lines : List String) :
    keepOrStyle previous lines n = styled lines n := by
  unfold keepOrStyle
  rw [Bool.eq_false_iff.mpr fun hany => h (any_id_iff.mp hany)]
  rfl

theorem mapM_keepOrStyle
    {previous nodes : List Node}
    (h : ∀ n ∈ nodes, n.id ∈ previous.map (·.id))
    (lines : List String) :
    nodes.mapM (keepOrStyle previous lines) = .ok nodes := by
  rw [mapM_eq_ok_iff, List.forall₂_same]
  exact fun n hn => keepOrStyle_of_mem (h n hn) lines

/-- Between nodes that are kept, one node of a new id is styled. -/
theorem mapM_keepOrStyle_insert
    {previous front back nodes : List Node} {n : Node} {lines : List String}
    (hfront : ∀ k ∈ front, k.id ∈ previous.map (·.id))
    (hback : ∀ k ∈ back, k.id ∈ previous.map (·.id))
    (hn : n.id ∉ previous.map (·.id))
    (h : (front ++ n :: back).mapM (keepOrStyle previous lines) = .ok nodes) :
    ∃ n', styled lines n = .ok n' ∧ nodes = front ++ n' :: back := by
  rw [List.mapM_append, bind_eq_ok_iff] at h
  obtain ⟨front', hfront', h⟩ := h
  obtain ⟨rest, hrest, h⟩ := bind_eq_ok_iff.mp h
  rw [List.mapM_cons, bind_eq_ok_iff] at hrest
  obtain ⟨n', hn', hrest⟩ := hrest
  obtain ⟨back', hback', hrest⟩ := bind_eq_ok_iff.mp hrest
  rw [mapM_keepOrStyle hfront] at hfront'
  rw [mapM_keepOrStyle hback] at hback'
  rw [keepOrStyle_of_not_mem hn] at hn'
  cases hfront'
  cases hback'
  cases hrest
  cases h
  exact ⟨n', hn', rfl⟩

/-- Behind nodes that are kept, the nodes of new ids are styled. -/
theorem mapM_keepOrStyle_append
    {previous front back nodes : List Node} {lines : List String}
    (hfront : ∀ k ∈ front, k.id ∈ previous.map (·.id))
    (h : (front ++ back).mapM (keepOrStyle previous lines) = .ok nodes) :
    ∃ back', back.mapM (keepOrStyle previous lines) = .ok back' ∧ nodes = front ++ back' := by
  rw [List.mapM_append, bind_eq_ok_iff] at h
  obtain ⟨front', hfront', h⟩ := h
  obtain ⟨back', hback', h⟩ := bind_eq_ok_iff.mp h
  rw [mapM_keepOrStyle hfront] at hfront'
  cases hfront'
  cases h
  exact ⟨back', hback', rfl⟩

theorem rebuild_eq_ok_iff
    {declared previous : List Node} {edges : List Edge} {lines : List String} {m : Model} :
    rebuild declared edges previous lines = .ok m ↔
      (completeNodes declared edges previous).mapM (keepOrStyle previous lines) =
          .ok m.nodes ∧
        m.edges = edges := by
  have hrebuild :
      rebuild declared edges previous lines =
        (completeNodes declared edges previous).mapM (keepOrStyle previous lines) >>=
          fun nodes => .ok { nodes, edges } := by
    rfl
  rw [hrebuild, bind_eq_ok_iff]
  constructor
  · rintro ⟨nodes, hnodes, hm⟩
    cases hm
    exact ⟨hnodes, rfl⟩
  · rintro ⟨hnodes, rfl⟩
    exact ⟨m.nodes, hnodes, rfl⟩

/-- The nodes that a former model and some declared nodes make are plain as those of a text. -/
theorem map_plain_completeNodes
    {kinds : List Line} {declared previous : List Node} {edges : List Edge}
    (hdeclared : declared.map Node.plain = Reading.declaredNodes kinds)
    (hedges : edges = Reading.modelEdges kinds)
    (hprevious : ∀ n ∈ previous, n.declared = false → n.plain = placeholder n.id) :
    (completeNodes declared edges previous).map Node.plain = Reading.plainNodes kinds := by
  have hids : declared.map (·.id) = (Reading.declaredNodes kinds).map (·.id) := by
    rw [← hdeclared, List.map_map]
    rfl
  rw [completeNodes_eq, Reading.plainNodes_eq, List.map_append, hdeclared, hids, hedges,
    List.map_map]
  congr 1
  apply List.map_congr_left
  intro id _
  rw [Function.comp_apply]
  rcases (former_spec previous id).2.2 with hmem | hnew
  · have hplain := hprevious _ hmem (former_declared previous id)
    rwa [former_id] at hplain
  · rw [hnew]
    rfl

/-- Nodes that have the styles of the lines make the model of the lines. -/
theorem reads_completeNodes
    {kinds : List Line} {declared previous : List Node} {edges : List Edge}
    (hdeclared : declared.map Node.plain = Reading.declaredNodes kinds)
    (hedges : edges = Reading.modelEdges kinds)
    (hprevious : ∀ n ∈ previous, n.declared = false → n.plain = placeholder n.id)
    (hstyles :
      ∀ n ∈ completeNodes declared edges previous, Line.styleOf kinds n.id = .ok n.style) :
    Reading.Reads kinds ⟨completeNodes declared edges previous, edges⟩ where
  nodes := map_plain_completeNodes hdeclared hedges hprevious
  styles := hstyles
  edges := hedges

/-- The model after an edit is read of the lines if the nodes that are kept have their styles. -/
theorem reads_rebuild
    {lines : List String} {declared previous : List Node} {edges : List Edge} {m : Model}
    (h : rebuild declared edges previous lines = .ok m)
    (hdeclared : declared.map Node.plain = Reading.declaredNodes (lines.map Line.classify))
    (hedges : edges = Reading.modelEdges (lines.map Line.classify))
    (hprevious : ∀ n ∈ previous, n.declared = false → n.plain = placeholder n.id)
    (hkept :
      ∀ n ∈ completeNodes declared edges previous, n.id ∈ previous.map (·.id) →
        Line.styleOf (lines.map Line.classify) n.id = .ok n.style)
    (hnew :
      ∀ n ∈ completeNodes declared edges previous, n.id ∉ previous.map (·.id) →
        n.style = {}) :
    Reading.Reads (lines.map Line.classify) m := by
  obtain ⟨hnodes, hm⟩ := rebuild_eq_ok_iff.mp h
  have hplain := map_plain_completeNodes hdeclared hedges hprevious
  rw [mapM_eq_ok_iff] at hnodes
  have hmember :
      ∀ n ∈ completeNodes declared edges previous, ∀ n',
        keepOrStyle previous lines n = .ok n' →
          n'.plain = n.plain ∧
            Line.styleOf (lines.map Line.classify) n'.id = .ok n'.style := by
    intro n hn n' hn'
    by_cases hmem : n.id ∈ previous.map (·.id)
    · rw [keepOrStyle_of_mem hmem] at hn'
      cases hn'
      exact ⟨rfl, hkept n hn hmem⟩
    · rw [keepOrStyle_of_not_mem hmem, styled_eq_ok_iff (hnew n hn hmem)] at hn'
      obtain ⟨_, hsame, hstyle⟩ := hn'
      have hid : n'.id = n.id := by
        rw [← n'.plain_id, hsame, n.plain_id]
      rw [← hid] at hstyle
      exact ⟨hsame, hstyle⟩
  refine ⟨?_, ?_, hm.trans hedges⟩
  · rw [← hplain]
    exact map_eq_map_of_forall₂ hnodes fun n hn n' hn' => (hmember n hn n' hn').1
  · intro n' hn'
    obtain ⟨n, hn, hkeep⟩ := exists_of_forall₂ hnodes hn'
    exact (hmember n hn n' hkeep).2

end RebuiltModels

end Flowchart
