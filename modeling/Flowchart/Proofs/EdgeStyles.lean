import Flowchart.Proofs.Rebuilding
import Flowchart.Proofs.StyleLines

/-!
# Writing the style of an edge

The link-style lines of a rank are removed wherever they stand, and a new one is
written below the edge line of that rank.  No edge line is lost by that, so the
rank is still that of the same edge, and nothing else than its style is said anew.

* `replace_eq_ok`: the lines that are kept, and where the new one stands.
* `replace_cases`: when there is no place for it.
* `replace_gives`: what the lines say afterwards.
-/

namespace Flowchart

section NumberedMembers

theorem member_eq_ok
    {α : Type} {xs : List α} {n : Nat} {x : α}
    (h : member xs (n : Int) = .ok x) :
    n < 2 ^ 63 ∧ xs[n]? = some x := by
  obtain ⟨i, hi, hx⟩ := bind_eq_ok_iff.mp h
  have hnot : ¬(n : Int) < 0 := by
    omega
  simp only [place, hnot, if_false, Int.toNat_natCast] at hi
  split at hi
  · rename_i hnumber
    simp only [isPlaceNumber, Bool.and_eq_true, decide_eq_true_eq] at hnumber
    split at hi
    · rename_i hbounds
      cases hi
      cases hx
      have hlimit : Int.pow 2 63 = ((2 ^ 63 : Nat) : Int) := by
        rfl
      rw [hlimit] at hnumber
      refine ⟨by omega, ?_⟩
      exact List.getElem?_eq_getElem (by omega)
    · cases hi
  · cases hi

/-- A number below the limit counts the member at its place, any other is too large. -/
theorem member_cases
    {α : Type} {xs : List α} {n : Nat} {x : α}
    (h : xs[n]? = some x) :
    member xs (n : Int) = .ok x ∨
      member xs (n : Int) = .error .oversizedNumber ∧ 2 ^ 63 ≤ n := by
  obtain ⟨hlength, hx⟩ := List.getElem?_eq_some_iff.mp h
  have hlimit : Int.pow 2 63 = ((2 ^ 63 : Nat) : Int) := by
    rfl
  have hnot : ¬(n : Int) < 0 := by
    omega
  by_cases hn : n < 2 ^ 63
  · have hnumber : isPlaceNumber n = true := by
      simp only [isPlaceNumber, hlimit, Bool.and_eq_true, decide_eq_true_eq]
      omega
    refine Or.inl (bind_eq_ok_iff.mpr ⟨⟨n, hlength⟩, ?_, congrArg Except.ok hx⟩)
    simp [place, hnumber, hnot, hlength]
  · have hnumber : isPlaceNumber n = false := by
      simp only [isPlaceNumber, hlimit, Bool.and_eq_false_iff, decide_eq_false_iff_not]
      omega
    refine Or.inr ⟨bind_eq_error_iff.mpr (Or.inl ?_), Nat.le_of_not_lt hn⟩
    simp [place, hnumber]

/-- A number that counts a member of a list has few digits. -/
theorem length_toDigits_le_indexLimit
    {n : Nat}
    (h : n < 2 ^ 63) :
    (Nat.toDigits 10 n).length ≤ Line.indexLimit := by
  have hdigits : (Nat.toDigits 10 n).length ≤ 63 := by
    rw [Nat.length_toDigits_le_iff (by decide) (by decide)]
    exact Nat.lt_of_lt_of_le h (Nat.pow_le_pow_left (by decide) 63)
  exact Nat.le_trans hdigits (by decide)

end NumberedMembers

/-- The link-style lines of an index. -/
def Line.IsLinkStyleOf (index : Nat) (kind : Line) : Prop :=
  ∃ properties, kind = .linkStyle index properties

namespace LinkStyle

/-- Whether a line is no link-style line of an index. -/
def keeps (index : Nat) (line : String) : Bool :=
  index? line != some index

theorem keeps_eq_false_iff
    {index : Nat} {line : String} :
    keeps index line = false ↔ (Line.classify line).IsLinkStyleOf index := by
  unfold keeps index? Line.IsLinkStyleOf
  cases Line.classify line with
  | linkStyle place properties =>
      simp
  | _ =>
      simp

theorem keeps_of_edge
    {index : Nat} {line : String} {e : EdgeLine}
    (h : Line.classify line = .edge e) :
    keeps index line = true := by
  unfold keeps index?
  rw [h]
  rfl

/-- A view that sees no link-style line of an index does not miss them. -/
theorem filterMap_filter_keeps
    {α : Type} {view : Line → Option α} {index : Nat}
    (h : ∀ kind : Line, kind.IsLinkStyleOf index → view kind = none)
    (lines : List String) :
    ((lines.filter (keeps index)).map Line.classify).filterMap view =
      (lines.map Line.classify).filterMap view := by
  rw [List.filterMap_map, List.filterMap_map]
  apply filterMap_filter_of_none
  intro line hline
  exact h _ (keeps_eq_false_iff.mp hline)

theorem edges_filter_keeps
    (index : Nat) (lines : List String) :
    Line.edges ((lines.filter (keeps index)).map Line.classify) =
      Line.edges (lines.map Line.classify) :=
  filterMap_filter_keeps (by rintro _ ⟨properties, rfl⟩; rfl) lines

/-- What is left gives the edge of the index nothing. -/
theorem edgeProperties_filter_keeps
    (index : Nat) (lines : List String) :
    Line.edgeProperties index ((lines.filter (keeps index)).map Line.classify) = [] := by
  unfold Line.edgeProperties
  rw [List.filterMap_map, List.filterMap_eq_nil_iff]
  intro line hline
  have hkeep := (List.mem_filter.mp hline).2
  unfold keeps index? at hkeep
  rw [Function.comp_apply]
  cases hkind : Line.classify line with
  | linkStyle place properties =>
      rw [hkind] at hkeep
      simpa using hkeep
  | _ =>
      rfl

/-- The numbers of the link-style lines of an index, from a number on. -/
theorem lineNumbers_eq
    (lines : List String) (index : Nat) :
    lineNumbers lines index =
      lines.zipIdx.filterMap fun (line, number) =>
        if keeps index line then none else some number := by
  unfold lineNumbers keeps
  congr 1
  funext ⟨line, number⟩
  dsimp only
  cases index? line with
  | none =>
      rfl
  | some place =>
      by_cases heq : place = index
      · simp [heq]
      · simp [heq]

theorem filterMap_zipIdx_of_keeps
    {index : Nat} {lines : List String}
    (h : ∀ line ∈ lines, keeps index line = true)
    (number : Nat) :
    ((lines.zipIdx number).filterMap fun (line, number) =>
      if keeps index line then none else some number) = [] := by
  rw [List.filterMap_eq_nil_iff]
  intro ⟨line, place⟩ hmem
  have hline : line ∈ lines := List.fst_mem_of_mem_zipIdx hmem
  dsimp only
  rw [h line hline]
  rfl

/-- A single link-style line of an index has one number. -/
theorem lineNumbers_append
    {index : Nat} {front back : List String} {styleLine : String}
    (hfront : ∀ line ∈ front, keeps index line = true)
    (hback : ∀ line ∈ back, keeps index line = true)
    (hstyle : keeps index styleLine = false) :
    lineNumbers (front ++ styleLine :: back) index = [front.length] := by
  rw [lineNumbers_eq, List.zipIdx_append, List.filterMap_append, filterMap_zipIdx_of_keeps hfront,
    List.zipIdx_cons, List.filterMap_cons, filterMap_zipIdx_of_keeps hback]
  simp [hstyle]

/-- Lines around an edge line, with one link-style line below it in the place of all others. -/
def rewritten (position : Nat) (front : List String) (line styleLine : String)
    (back : List String) : List String :=
  front.filter (keeps position) ++ line :: styleLine :: back.filter (keeps position)

/-- Some lines with one more below the edge line of a rank. -/
def insertBelow (kept : List String) (position : Nat) (styleLine : String) :
    Except Fault (List String) := do
  if ((EdgePlace.all kept).length : Int) ≤ position then throw (.noEdgeAt position)
  let l ← member (EdgePlace.all kept) position
  return kept.take (l.lineNumber + 1) ++ styleLine :: kept.drop (l.lineNumber + 1)

/-- The new line is put among the lines that are kept. -/
theorem replace_eq
    (lines : List String) (position : Nat) (styleLine : String) :
    replace lines position styleLine =
      (do
        checkReadable lines
        insertBelow (lines.filter (keeps position)) position styleLine) := by
  unfold replace
  rw [@List.filter_congr _ _ (keeps position) lines]
  · rfl
  · intro line _
    unfold keeps
    cases index? line with
    | none =>
        rfl
    | some place =>
        by_cases heq : place = position
        · simp [heq]
        · simp [heq]

section Replace

variable {front back : List String} {line styleLine : String} {e : EdgeLine} {position : Nat}
  (hline : Line.classify line = .edge e)
  (hfront : (Line.edges (front.map Line.classify)).length = position)

include hline

/-- Of the lines around an edge line those of its rank go. -/
theorem filter_keeps_append :
    (front ++ line :: back).filter (keeps position) =
      front.filter (keeps position) ++ line :: back.filter (keeps position) := by
  rw [List.filter_append, List.filter_cons_of_pos (keeps_of_edge hline)]

include hfront

/-- The edge line is found at its rank among the lines that are kept. -/
theorem insertBelow_eq
    (back : List String) (styleLine : String) :
    ∃ l, (EdgePlace.all ((front ++ line :: back).filter (keeps position)))[position]? = some l ∧
      insertBelow ((front ++ line :: back).filter (keeps position)) position styleLine =
        (member (EdgePlace.all ((front ++ line :: back).filter (keeps position))) position).map
          fun _ => rewritten position front line styleLine back := by
  obtain ⟨l, hl, hnumber, _⟩ :=
    getElem?_edgePlaces_append hline (front.filter (keeps position))
      (back.filter (keeps position))
  rw [edges_filter_keeps, hfront, ← filter_keeps_append hline] at hl
  refine ⟨l, hl, ?_⟩
  obtain ⟨hlength, _⟩ := List.getElem?_eq_some_iff.mp hl
  unfold insertBelow
  rw [if_neg (by omega)]
  change (member _ _ >>= fun _ => _) = _
  cases hmember :
      member (EdgePlace.all ((front ++ line :: back).filter (keeps position))) (position : Int) with
  | error fault =>
      rfl
  | ok place =>
      rw [(member_eq_ok hmember).2] at hl
      cases hl
      have hlength : (front.filter (keeps position) ++ [line]).length = l.lineNumber + 1 := by
        rw [List.length_append, hnumber]
        rfl
      change Except.ok _ = Except.ok _
      rw [filter_keeps_append hline, List.append_cons _ line (back.filter _), ← hlength,
        List.take_left, List.drop_left, ← List.append_cons]
      rfl

/-- The new line stands below the edge line, and of the others only the old ones are gone. -/
theorem replace_eq_ok
    {lines' : List String}
    (h : replace (front ++ line :: back) position styleLine = .ok lines') :
    IsReadable (front ++ line :: back) ∧ position < 2 ^ 63 ∧
      lines' = rewritten position front line styleLine back := by
  obtain ⟨l, hl, hinsert⟩ := insertBelow_eq hline hfront back styleLine
  rw [replace_eq] at h
  obtain ⟨_, hreadable, h⟩ := bind_eq_ok_iff.mp h
  rw [hinsert] at h
  cases hmember :
      member (EdgePlace.all ((front ++ line :: back).filter (keeps position))) (position : Int) with
  | error fault =>
      rw [hmember] at h
      cases h
  | ok place =>
      rw [hmember] at h
      cases h
      exact ⟨checkReadable_eq_ok_iff.mp hreadable, (member_eq_ok hmember).1, rfl⟩

/-- The new line finds its place, unless the rank is too large a number. -/
theorem replace_cases
    (hreadable : IsReadable (front ++ line :: back))
    (styleLine : String) :
    (∃ lines', replace (front ++ line :: back) position styleLine = .ok lines') ∨
      replace (front ++ line :: back) position styleLine = .error .oversizedNumber ∧
        2 ^ 63 ≤ position := by
  obtain ⟨l, hl, hinsert⟩ := insertBelow_eq hline hfront back styleLine
  rw [replace_eq, checkReadable_eq_ok_iff.mpr hreadable]
  change (∃ lines', insertBelow _ _ _ = _) ∨ insertBelow _ _ _ = _ ∧ _
  rw [hinsert]
  rcases member_cases hl with hmember | ⟨hmember, hposition⟩
  · exact Or.inl ⟨_, congrArg (Except.map _) hmember⟩
  · exact Or.inr ⟨congrArg (Except.map _) hmember, hposition⟩

end Replace

end LinkStyle

/-- The lines of edges, and the link-style lines of one of them. -/
def Line.IsOfEdge (index : Nat) (kind : Line) : Prop :=
  (∃ e, kind = .edge e) ∨ kind.IsLinkStyleOf index

/--
Lines with an edge line at a rank, one link-style line of the rank directly below
it, and otherwise what other lines say.
-/
structure GivesEdge (position : Nat) (e : EdgeLine) (style : EdgeStyle)
    (lines lines' : List String) : Prop where
  oneLine : ∀ line ∈ lines', IsOneLine line
  readable : IsReadable lines'
  same :
    LooksSame (Line.IsOfEdge position) (lines.map Line.classify) (lines'.map Line.classify)
  edges :
    Line.edges (lines'.map Line.classify) =
      (Line.edges (lines.map Line.classify)).set position e
  given : Line.edgeProperties position (lines'.map Line.classify) = [style.properties]
  below :
    ∃ l, (EdgePlace.all lines')[position]? = some l ∧
      LinkStyle.lineNumbers lines' position = [l.lineNumber + 1]

theorem GivesEdge.ne_singleton
    {position : Nat} {e : EdgeLine} {style : EdgeStyle} {lines lines' : List String}
    (h : GivesEdge position e style lines lines') :
    lines' ≠ [""] := by
  intro hlines
  have hgiven := h.given
  rw [hlines, List.map_singleton, Line.classify_of_isBlankLine rfl] at hgiven
  cases hgiven

namespace LinkStyle

section Rewritten

variable {front back : List String} {old new styleLine : String} {e e' : EdgeLine}
  {properties : Properties} {position : Nat}

theorem mem_rewritten
    {line : String}
    (h : line ∈ rewritten position front new styleLine back) :
    line = new ∨ line = styleLine ∨ line ∈ front ∨ line ∈ back := by
  rcases List.mem_append.mp h with h | h
  · exact Or.inr (Or.inr (Or.inl (List.mem_of_mem_filter h)))
  · rcases List.mem_cons.mp h with rfl | h
    · exact Or.inl rfl
    · rcases List.mem_cons.mp h with rfl | h
      · exact Or.inr (Or.inl rfl)
      · exact Or.inr (Or.inr (Or.inr (List.mem_of_mem_filter h)))

variable
  (hnew : Line.classify new = .edge e')
  (hstyle : Line.classify styleLine = .linkStyle position properties)

include hnew hstyle

theorem map_classify_rewritten :
    (rewritten position front new styleLine back).map Line.classify =
      (front.filter (keeps position)).map Line.classify ++
        .edge e' :: .linkStyle position properties ::
          (back.filter (keeps position)).map Line.classify := by
  unfold rewritten
  rw [List.map_append, List.map_cons, List.map_cons, hnew, hstyle]

/-- The edge is given what the new line says, and nothing else. -/
theorem edgeProperties_rewritten :
    Line.edgeProperties position
        ((rewritten position front new styleLine back).map Line.classify) =
      [properties] := by
  rw [map_classify_rewritten hnew hstyle, Line.edgeProperties_append, edgeProperties_filter_keeps,
    List.nil_append]
  change Line.edgeProperties position (.linkStyle position _ :: _) = _
  rw [Line.edgeProperties_cons, if_pos rfl, edgeProperties_filter_keeps]

/-- The new line is the only one of the rank, directly below the edge line. -/
theorem lineNumbers_rewritten
    (hfront : (Line.edges (front.map Line.classify)).length = position) :
    ∃ l, (EdgePlace.all (rewritten position front new styleLine back))[position]? = some l ∧
      lineNumbers (rewritten position front new styleLine back) position =
        [l.lineNumber + 1] := by
  obtain ⟨l, hl, hnumber, _⟩ :=
    getElem?_edgePlaces_append hnew (front.filter (keeps position))
      (styleLine :: back.filter (keeps position))
  rw [edges_filter_keeps, hfront] at hl
  refine ⟨l, hl, ?_⟩
  have hkeeps :
      ∀ line ∈ front.filter (keeps position) ++ [new], keeps position line = true := by
    intro line hline
    rcases List.mem_append.mp hline with hline | hline
    · exact (List.mem_filter.mp hline).2
    · rw [List.mem_singleton.mp hline]
      exact keeps_of_edge hnew
  unfold rewritten
  rw [List.append_cons, lineNumbers_append hkeeps (fun line hline => (List.mem_filter.mp hline).2)
    (keeps_eq_false_iff.mpr ⟨_, hstyle⟩), List.length_append, hnumber]
  rfl

section Old

variable (hold : Line.classify old = .edge e)

include hold

/-- Other lines than those of edges and of their styles are as they were. -/
theorem looksSame_rewritten :
    LooksSame (Line.IsOfEdge position) ((front ++ old :: back).map Line.classify)
      ((rewritten position front new styleLine back).map Line.classify) := by
  intro α view _ _ hview
  have hlinkStyle : ∀ kind : Line, kind.IsLinkStyleOf position → view kind = none :=
    fun kind hkind => hview kind (Or.inr hkind)
  have hedge : ∀ e, view (.edge e) = none := fun e => hview _ (Or.inl ⟨e, rfl⟩)
  rw [map_classify_rewritten hnew hstyle, List.map_append, List.map_cons, hold,
    List.filterMap_append, List.filterMap_append, List.filterMap_cons_none (hedge e'),
    List.filterMap_cons_none (hedge e), List.filterMap_cons_none (hlinkStyle _ ⟨_, rfl⟩),
    filterMap_filter_keeps hlinkStyle, filterMap_filter_keeps hlinkStyle]

/-- The new edge line has the rank of the old one. -/
theorem edges_rewritten
    (hfront : (Line.edges (front.map Line.classify)).length = position) :
    Line.edges ((rewritten position front new styleLine back).map Line.classify) =
      (Line.edges ((front ++ old :: back).map Line.classify)).set position e' := by
  have hback :
      Line.edges (.edge e' :: .linkStyle position properties ::
          (back.filter (keeps position)).map Line.classify) =
        e' :: Line.edges (back.map Line.classify) :=
    congrArg (e' :: ·) (edges_filter_keeps position back)
  have hrest :
      Line.edges (.edge e :: back.map Line.classify) =
        e :: Line.edges (back.map Line.classify) := by
    rfl
  rw [map_classify_rewritten hnew hstyle, Line.edges_append, edges_filter_keeps, hback,
    List.map_append, List.map_cons, hold, Line.edges_append, hrest, ← hfront,
    List.set_append_right _ _ (Nat.le_refl _), Nat.sub_self]
  rfl

end Old

end Rewritten

/-- A link-style line replaces those of the edge line that it stands below. -/
theorem replace_gives
    {front back lines' : List String} {old new indent : String} {e e' : EdgeLine}
    {style : EdgeStyle} {position : Nat}
    (hold : Line.classify old = .edge e)
    (hnew : Line.classify new = .edge e')
    (honeLine : ∀ line ∈ front ++ old :: back, IsOneLine line)
    (hnewLine : IsOneLine new)
    (hindent : IsIndent indent)
    (hfront : (Line.edges (front.map Line.classify)).length = position)
    (h : replace (front ++ new :: back) position (style.write position indent) = .ok lines') :
    GivesEdge position e' style (front ++ old :: back) lines' := by
  obtain ⟨hreadable, hposition, rfl⟩ := replace_eq_ok hnew hfront h
  have hkind :=
    EdgeStyle.classify_write (length_toDigits_le_indexLimit hposition) hindent.blank style
  constructor
  · intro line hline
    rcases mem_rewritten hline with rfl | rfl | hline | hline
    · exact hnewLine
    · exact EdgeStyle.isOneLine_write hindent.oneLine style position
    · exact honeLine line (List.mem_append_left _ hline)
    · exact honeLine line (List.mem_append_right _ (List.mem_cons_of_mem _ hline))
  · intro line hline
    rcases mem_rewritten hline with rfl | rfl | hline | hline
    · rw [hnew]
      exact fun _ => Line.noConfusion
    · rw [hkind]
      exact fun _ => Line.noConfusion
    · exact hreadable line (List.mem_append_left _ hline)
    · exact hreadable line (List.mem_append_right _ (List.mem_cons_of_mem _ hline))
  · exact looksSame_rewritten hnew hkind hold
  · exact edges_rewritten hnew hkind hold hfront
  · exact edgeProperties_rewritten hnew hkind
  · exact lineNumbers_rewritten hnew hkind hfront

end LinkStyle

end Flowchart
