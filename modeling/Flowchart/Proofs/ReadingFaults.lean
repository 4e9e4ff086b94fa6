import Flowchart.Proofs.FiniteWidths
import Flowchart.Proofs.FreshIds
import Flowchart.Proofs.StyleLines

/-!
# Texts that cannot be read

A text is refused for two reasons only.  The index of a link-style line may have
more digits than are read as a number, wherever the line stands and whether or not
there is such an edge.  And a style line of a node that there is may give a width
that would be rounded to infinity.  Every other text is read.

* `classify_eq_overlong_iff`: what a line with too long an index looks like.
* `reading_succeeds_iff`: which texts are read, and the fault of the others.
-/

namespace Flowchart

open Text

namespace Line

/-- A link-style line with an index of some number of digits, which are too many. -/
def IsOverlong (line : String) (size : Nat) : Prop :=
  indexLimit < size ∧
    ∃ gap digits gap' rest,
      core line.toList = "linkStyle".toList ++ (gap ++ (digits ++ gap' ++ rest)) ∧
      IsDirective isDigit gap digits gap' rest ∧ digits.length = size

/-- A line is overlong if it is written as a link-style line with too many digits. -/
theorem classify_eq_overlong_iff
    {line : String} {size : Nat} :
    classify line = overlong size ↔ IsOverlong line size := by
  constructor
  · intro h
    have hread : linkStyle? (core line.toList) = some (overlong size) :=
      reader?_of_classify h (by simp)
    obtain ⟨⟨digits, rest⟩, hdirective, hline⟩ := Option.map_eq_some_iff.mp hread
    obtain ⟨gap, gap', hcore, hparts⟩ :=
      (directive?_eq_some_iff fun _ hc => isDigit_of_isBlank hc).mp hdirective
    dsimp only at hline
    split at hline
    · rename_i hlimit
      cases hline
      exact ⟨hlimit, gap, digits, gap', rest, hcore, hparts, rfl⟩
    · cases hline
  · rintro ⟨hlimit, gap, digits, gap', rest, hcore, hparts, rfl⟩
    have hdirective :
        directive? "linkStyle" isDigit
            ("linkStyle".toList ++ (gap ++ (digits ++ gap' ++ rest))) = some (digits, rest) :=
      (directive?_eq_some_iff fun _ hc => isDigit_of_isBlank hc).mpr ⟨gap, gap', rfl, hparts⟩
    have hkind :
        kind? ("linkStyle".toList ++ (gap ++ (digits ++ gap' ++ rest))) =
          some (overlong digits.length) := by
      apply kind?_of_linkStyle?
      unfold linkStyle?
      rw [hdirective]
      simp [hlimit]
    rw [classify_eq, hcore, hkind]
    rfl

theorem read_of_isOverlong
    {line : String} {size : Nat}
    (h : IsOverlong line size) :
    read line = .error (.overlongIndex size) := by
  unfold read
  rw [classify_eq_overlong_iff.mpr h]

/-- A line is read as what it says unless it is overlong. -/
theorem read_eq_ok_classify_iff
    {line : String} :
    read line = .ok (classify line) ↔ ∀ size, ¬IsOverlong line size := by
  constructor
  · intro h size hsize
    rw [read_of_isOverlong hsize] at h
    cases h
  · intro h
    unfold read
    split
    · rename_i size hsize
      exact absurd (classify_eq_overlong_iff.mp hsize) (h size)
    · rfl

end Line

/-- The first overlong line is the fault of some lines. -/
theorem exists_of_checkReadable_eq_error
    {lines : List String} {fault : Fault}
    (h : checkReadable lines = .error fault) :
    ∃ line ∈ lines, ∃ size, Line.IsOverlong line size ∧ fault = .overlongIndex size := by
  induction lines with
  | nil =>
      cases h
  | cons line lines ih =>
      unfold checkReadable at h
      rw [List.forM_eq_forM, List.forM_cons, bind_eq_error_iff] at h
      rcases h with hline | ⟨_, _, hlines⟩
      · refine ⟨line, List.mem_cons_self, ?_⟩
        by_cases hread : ∀ size, ¬Line.IsOverlong line size
        · rw [Line.read_eq_ok_classify_iff.mpr hread] at hline
          cases hline
        · push Not at hread
          obtain ⟨size, hsize⟩ := hread
          rw [Line.read_of_isOverlong hsize] at hline
          cases hline
          exact ⟨size, hsize, rfl⟩
      · obtain ⟨other, hother, hfault⟩ := ih hlines
        exact ⟨other, List.mem_cons_of_mem _ hother, hfault⟩

namespace Reading

section InfiniteWidths

/-- The ids in use are those of the nodes that are read. -/
theorem mem_used_iff_mem_plainNodes
    {lines : List String} {id : String} :
    id ∈ NodeId.used lines ↔ id ∈ (plainNodes (lines.map Line.classify)).map (·.id) := by
  rw [NodeId.mem_used_iff, map_id_plainNodes, List.mem_append, mem_newEnds,
    mem_map_id_declaredNodes]
  tauto

/-- The nodes of some lines get their styles if all widths that they are given are finite. -/
theorem styleNodes_succeeds_iff
    {lines : List Line} :
    (∃ nodes, styleNodes lines (plainNodes lines) = .ok nodes) ↔
      ∀ id ∈ (plainNodes lines).map (·.id), Line.HasFiniteWidths id lines := by
  rw [styleNodes_eq (nodup_plainNodes lines), exists_mapM_eq_ok_iff, List.forall_mem_map]
  constructor
  · intro h n hn
    obtain ⟨n', hn'⟩ := h n hn
    rw [styleNode_eq (style_of_mem_plainNodes hn)] at hn'
    obtain ⟨s, hs, _⟩ := bind_eq_ok_iff.mp hn'
    exact Line.hasFiniteWidths_of_styleOf hs
  · intro h n hn
    obtain ⟨s, hs⟩ := Line.styleOf_of_finite (h n hn)
    rw [styleNode_eq (style_of_mem_plainNodes hn)]
    exact ⟨_, bind_eq_ok_iff.mpr ⟨s, hs, rfl⟩⟩

end InfiniteWidths

end Reading

section Texts

/-- Lines are read if they are readable and the widths that nodes are given are finite. -/
theorem ofLines_succeeds_iff
    {lines : List String} :
    (∃ r, Reading.ofLines lines = .ok r) ↔
      IsReadable lines ∧
        ∀ id ∈ NodeId.used lines, Line.HasFiniteWidths id (lines.map Line.classify) := by
  unfold Reading.ofLines Reading.modelOf
  rw [← checkReadable_eq_ok_iff]
  simp only [Reading.mem_used_iff_mem_plainNodes, ← Reading.styleNodes_succeeds_iff,
    bind_eq_ok_iff]
  constructor
  · rintro ⟨_, _, hreadable, _, ⟨nodes, hnodes, _⟩, _⟩
    exact ⟨hreadable, nodes, hnodes⟩
  · rintro ⟨hreadable, nodes, hnodes⟩
    exact ⟨_, (), hreadable, _, ⟨nodes, hnodes, rfl⟩, rfl⟩

/-- The fault of lines that are not read. -/
theorem fault_of_ofLines
    {lines : List String} {fault : Fault}
    (h : Reading.ofLines lines = .error fault) :
    fault = .infiniteWidth ∨
      ∃ line ∈ lines, ∃ size, Line.IsOverlong line size ∧ fault = .overlongIndex size := by
  unfold Reading.ofLines Reading.modelOf at h
  rcases bind_eq_error_iff.mp h with h | ⟨_, _, h⟩
  · exact Or.inr (exists_of_checkReadable_eq_error h)
  · rcases bind_eq_error_iff.mp h with h | ⟨_, _, h⟩
    · rcases bind_eq_error_iff.mp h with h | ⟨_, _, h⟩
      · exact Or.inl (Reading.fault_of_styleNodes (Reading.nodup_plainNodes _) h)
      · cases h
    · cases h

/--
A text is read if none of its link-style lines has an index of too many digits and
all widths that its style lines give to its nodes are finite.  The fault of any other
text is the index or the infinite width, and a single line is refused only for its
index.
-/
theorem reading_succeeds_iff
    (text : String) :
    ((∃ r, Reading.ofText text = .ok r) ↔
        (∀ line ∈ splitLines text, ∀ size, ¬Line.IsOverlong line size) ∧
          ∀ id ∈ NodeId.used (splitLines text),
            Line.HasFiniteWidths id ((splitLines text).map Line.classify)) ∧
      (∀ fault, Reading.ofText text = .error fault →
        fault = .infiniteWidth ∨
          ∃ line ∈ splitLines text, ∃ size,
            Line.IsOverlong line size ∧ fault = .overlongIndex size) ∧
      ∀ line,
        Line.read line = .ok (Line.classify line) ↔ ∀ size, ¬Line.IsOverlong line size := by
  refine ⟨?_, ?_, fun _ => Line.read_eq_ok_classify_iff⟩
  · unfold Reading.ofText
    rw [ofLines_succeeds_iff]
    unfold IsReadable
    simp only [ne_eq, Line.classify_eq_overlong_iff]
  · exact fun fault h => fault_of_ofLines h

end Texts

section RefusedTexts

/-- As many digits as one likes make a line overlong. -/
theorem Line.isOverlong_replicate
    {size : Nat}
    (h : indexLimit < size) :
    IsOverlong
      (String.ofList ("linkStyle ".toList ++ (List.replicate size '1' ++ " x".toList))) size := by
  have hcore :
      core ("linkStyle ".toList ++ (List.replicate size '1' ++ " x".toList)) =
        "linkStyle ".toList ++ (List.replicate size '1' ++ " x".toList) := by
    apply core_eq_self
    · exact startsTight_append (by decide) (head?_cons_stops (by decide) _)
    · rw [← List.append_assoc, getLast?_append_of_ne_nil (by decide)]
      intro c hc
      have hlast : 'x' = c := by simpa using hc
      rw [← hlast]
      decide
  have hgap : ∀ c ∈ [' '], isBlank c = true := List.forall_mem_singleton.mpr (by decide)
  have hne : List.replicate size '1' ≠ [] := by
    rw [Ne, List.replicate_eq_nil_iff]
    omega
  have hdigits : ∀ c ∈ List.replicate size '1', isDigit c = true := by
    intro c hc
    rw [List.eq_of_mem_replicate hc]
    decide
  refine ⟨h, [' '], List.replicate size '1', [' '], ['x'], ?_, ?_, List.length_replicate⟩
  · rw [String.toList_ofList, hcore, List.append_assoc]
    rfl
  · exact ⟨hgap, by decide, hdigits, hne, hgap, by decide,
      head?_cons_stops (by decide) _, by decide, by decide⟩

/-- A style line with a width of one and some zeros. -/
def wideLine (id : String) (zeros : Nat) : String :=
  "style " ++ id ++ " stroke-width:1" ++ String.ofList (List.replicate zeros '0') ++ "px"

/-- The properties of such a line. -/
def wideProperties (zeros : Nat) : Properties :=
  [("stroke-width", String.ofList ('1' :: List.replicate zeros '0' ++ ['p', 'x']))]

theorem classify_wideLine
    {id : String}
    (hid : isIdentifier id.toList = true)
    (zeros : Nat) :
    Line.classify (wideLine id zeros) = .style id (wideProperties zeros) := by
  have hplain : ∀ p ∈ wideProperties zeros, Properties.IsPlain p := by
    intro p hp
    rw [List.mem_singleton.mp hp]
    refine Properties.isPlain_of_all (by decide) (List.all_eq_true.mp (by decide)) ?_
    intro c hc
    simp only [String.toList_ofList, List.cons_append, List.mem_cons, List.mem_append,
      List.mem_replicate, List.not_mem_nil, or_false] at hc
    rcases hc with rfl | ⟨_, rfl⟩ | rfl | rfl <;> decide
  have hline :
      (wideLine id zeros).toList =
        "".toList ++
          ("style".toList ++
            ([' '] ++ (id.toList ++ [' '] ++ Properties.listOf (wideProperties zeros)))) := by
    simp [wideLine, wideProperties, Properties.listOf, Properties.chunk, String.toList_append]
  exact classify_styleLine hplain (List.cons_ne_nil _ _) hid (by simp) hline

theorem isOneLine_wideLine
    {id : String}
    (hid : isIdentifier id.toList = true)
    (zeros : Nat) :
    IsOneLine (wideLine id zeros) := by
  have hzeros : '\n' ∉ List.replicate zeros '0' := fun h =>
    absurd (List.eq_of_mem_replicate h) (by decide)
  unfold wideLine
  simp only [isOneLine_append, isOneLine_ofList]
  exact ⟨⟨⟨⟨by decide, isOneLine_of_isIdentifier hid⟩, by decide⟩, hzeros⟩, by decide⟩

theorem width?_wideProperties
    (zeros : Nat) :
    (wideProperties zeros).width? = some ⟨10 ^ zeros, 0⟩ := by
  have hdigits : ∀ c ∈ '1' :: List.replicate zeros '0', isDigit c = true := by
    intro c hc
    rw [List.mem_cons, List.mem_replicate] at hc
    rcases hc with rfl | ⟨_, rfl⟩ <;> decide
  have hnumber : number ('1' :: List.replicate zeros '0') = 10 ^ zeros := by
    have happend := number_append ['1'] (List.replicate zeros '0')
    have hone : number ['1'] = 1 := by
      decide
    rwa [Decimal.number_zeros, List.length_replicate, hone, Nat.one_mul, Nat.add_zero] at happend
  have hread := read?_whole (List.cons_ne_nil _ _) hdigits
  rw [hnumber] at hread
  unfold Properties.width? wideProperties
  simpa [Record.last?] using hread

/-- With 309 zeros the width lies beyond all finite values. -/
theorem not_hasFiniteWidth_wide :
    ¬(wideProperties 309).HasFiniteWidth := by
  have hinfinite : ¬(⟨10 ^ 309, 0⟩ : Decimal).IsFinite := by
    unfold Decimal.IsFinite
    decide +kernel
  exact fun h => hinfinite (h _ (width?_wideProperties 309))

/-- A node is given a width of 310 digits. -/
theorem ofLines_wide :
    Reading.ofLines ["A[x]", wideLine "A" 309] = .error .infiniteWidth := by
  have hnode : Line.classify "A[x]" = .node "A" "[x]" := by
    decide
  have hstyle : Line.classify (wideLine "A" 309) = .style "A" (wideProperties 309) :=
    classify_wideLine (by decide) 309
  have hfails : ¬∃ r, Reading.ofLines ["A[x]", wideLine "A" 309] = .ok r := by
    rw [ofLines_succeeds_iff]
    rintro ⟨_, hwidths⟩
    refine not_hasFiniteWidth_wide (hwidths "A" ?_ _ ?_)
    · rw [NodeId.mem_used_iff]
      simp [hnode, Reading.declarations, Reading.declaredNode]
    · simp [hstyle]
  cases hread : Reading.ofLines ["A[x]", wideLine "A" 309] with
  | ok r =>
      exact absurd ⟨r, hread⟩ hfails
  | error fault =>
      rcases fault_of_ofLines hread with rfl | ⟨line, hline, size, hsize, _⟩
      · rfl
      · rw [← Line.classify_eq_overlong_iff] at hsize
        simp only [List.mem_cons, List.not_mem_nil, or_false] at hline
        rcases hline with rfl | rfl
        · rw [hnode] at hsize
          cases hsize
        · rw [hstyle] at hsize
          cases hsize

theorem ofText_wide :
    Reading.ofText (joinLines ["A[x]", wideLine "A" 309]) = .error .infiniteWidth := by
  have honeLine : ∀ line ∈ ["A[x]", wideLine "A" 309], IsOneLine line := by
    rw [List.forall_mem_cons, List.forall_mem_singleton]
    exact ⟨by decide, isOneLine_wideLine (by decide) 309⟩
  unfold Reading.ofText
  rw [splitLines_joinLines honeLine (by simp)]
  exact ofLines_wide

/-- A width of 310 digits for a node, and an index of 4301 digits. -/
theorem reading_fails :
    Reading.ofText (joinLines ["A[x]", wideLine "A" 309]) = .error .infiniteWidth ∧
    Line.read
        (String.ofList ("linkStyle ".toList ++ (List.replicate 4301 '1' ++ " x".toList))) =
      .error (.overlongIndex 4301) :=
  ⟨ofText_wide, Line.read_of_isOverlong (Line.isOverlong_replicate (by decide))⟩

end RefusedTexts

end Flowchart
