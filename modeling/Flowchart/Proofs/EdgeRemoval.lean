import Flowchart.Proofs.ModelReading
import Mathlib.Data.List.Nodup

/-!
# Removal of edge lines

Removing edge lines at some positions lowers every other link-style index by the
number of positions below it.  The indices that stay are the ranks of the edges
that stay, since both count what is not removed, and they stay different, so no
link style comes to an edge that it was not written for.

* `shift`: the new rank of a rank that stays.
* `map_classify_dropFrom`: the kinds of the remaining lines.
* `edgeProperties_dropKinds`: what is given to an edge is given to its new rank.
* `modelEdges_dropKinds`: the remaining edges are the others, numbered anew.
-/

namespace Flowchart
namespace LinkStyle

open Line

section NewRanks

/-- How many ranks below an index are not removed: the new rank, if it is not either. -/
def shift (positions : List Int) : Nat → Nat
  | 0 => 0
  | i + 1 =>
      if positions.contains (i : Int) then shift positions i else shift positions i + 1

theorem countBelow_succ
    (positions : List Int) (i : Nat) :
    countBelow positions (i + 1) =
      countBelow positions i + if positions.contains (i : Int) then 1 else 0 := by
  have hsplit :
      ∀ ps : List Int,
        ps.countP (· < ((i + 1 : Nat) : Int)) =
          ps.countP (· < (i : Int)) + ps.count (i : Int) := by
    intro ps
    induction ps with
    | nil =>
        rfl
    | cons p ps ih =>
        rw [List.countP_cons, List.countP_cons, List.count_cons, ih]
        simp only [decide_eq_true_eq, beq_iff_eq]
        split <;> split <;> split <;> omega
  unfold countBelow
  rw [hsplit, (nodup_eraseDups positions).count]
  simp only [List.mem_eraseDups, List.contains_iff_mem]

/-- What is lowered and what is left make up the index. -/
theorem countBelow_add_shift
    {positions : List Int}
    (hpositions : ∀ p ∈ positions, 0 ≤ p)
    (i : Nat) :
    countBelow positions i + shift positions i = i := by
  induction i with
  | zero =>
      have hnone : countBelow positions 0 = 0 := by
        unfold countBelow
        rw [List.countP_eq_zero]
        intro p hp
        have hnonneg := hpositions p (List.mem_eraseDups.mp hp)
        simp
        omega
      rw [hnone]
      rfl
  | succ i ih =>
      rw [countBelow_succ]
      unfold shift
      split <;> omega

theorem shift_succ_of_mem
    {positions : List Int} {i : Nat}
    (h : positions.contains (i : Int) = true) :
    shift positions (i + 1) = shift positions i := by
  conv_lhs => unfold shift
  rw [if_pos h]

theorem shift_succ_of_not_mem
    {positions : List Int} {i : Nat}
    (h : positions.contains (i : Int) = false) :
    shift positions (i + 1) = shift positions i + 1 := by
  conv_lhs => unfold shift
  rw [h]
  rfl

theorem shift_le_shift
    (positions : List Int) {i j : Nat}
    (h : i ≤ j) :
    shift positions i ≤ shift positions j := by
  induction h with
  | refl =>
      exact Nat.le_refl _
  | @step j _ ih =>
      refine Nat.le_trans ih ?_
      cases hj : positions.contains (j : Int) with
      | true =>
          exact Nat.le_of_eq (shift_succ_of_mem hj).symm
      | false =>
          rw [Nat.succ_eq_add_one, shift_succ_of_not_mem hj]
          exact Nat.le_succ _

theorem shift_lt_shift
    {positions : List Int} {i j : Nat}
    (hi : positions.contains (i : Int) = false)
    (h : i < j) :
    shift positions i < shift positions j := by
  have hle := shift_le_shift positions (Nat.succ_le_of_lt h)
  rw [Nat.succ_eq_add_one, shift_succ_of_not_mem hi] at hle
  omega

/-- Ranks that stay keep different ranks. -/
theorem shift_injective
    {positions : List Int} {i j : Nat}
    (hi : positions.contains (i : Int) = false)
    (hj : positions.contains (j : Int) = false)
    (h : shift positions i = shift positions j) :
    i = j := by
  rcases Nat.lt_trichotomy i j with hlt | heq | hgt
  · have := shift_lt_shift hi hlt
    omega
  · exact heq
  · have := shift_lt_shift hj hgt
    omega

end NewRanks

section KeepOff

variable {α β : Type}

/-- The members of a list whose ranks, counted from a first one on, are not removed. -/
def keepOff (positions : List Int) : Nat → List α → List α
  | _, [] => []
  | rank, x :: xs =>
      if positions.contains (rank : Int) then keepOff positions (rank + 1) xs
      else x :: keepOff positions (rank + 1) xs

theorem keepOff_cons_of_mem
    {positions : List Int} {rank : Nat}
    (h : positions.contains (rank : Int) = true)
    (x : α) (xs : List α) :
    keepOff positions rank (x :: xs) = keepOff positions (rank + 1) xs := by
  conv_lhs => unfold keepOff
  rw [if_pos h]

theorem keepOff_cons_of_not_mem
    {positions : List Int} {rank : Nat}
    (h : positions.contains (rank : Int) = false)
    (x : α) (xs : List α) :
    keepOff positions rank (x :: xs) = x :: keepOff positions (rank + 1) xs := by
  conv_lhs => unfold keepOff
  rw [h]
  rfl

theorem map_keepOff
    (positions : List Int) (rank : Nat) (f : α → β) (xs : List α) :
    (keepOff positions rank xs).map f = keepOff positions rank (xs.map f) := by
  induction xs generalizing rank with
  | nil =>
      rfl
  | cons x xs ih =>
      rw [List.map_cons]
      cases h : positions.contains (rank : Int) with
      | true =>
          rw [keepOff_cons_of_mem h, keepOff_cons_of_mem h, ih]
      | false =>
          rw [keepOff_cons_of_not_mem h, keepOff_cons_of_not_mem h, List.map_cons, ih]

theorem keepOff_sublist
    (positions : List Int) (rank : Nat) (xs : List α) :
    (keepOff positions rank xs).Sublist xs := by
  induction xs generalizing rank with
  | nil =>
      exact List.Sublist.refl _
  | cons x xs ih =>
      cases h : positions.contains (rank : Int) with
      | true =>
          rw [keepOff_cons_of_mem h]
          exact (ih (rank + 1)).cons x
      | false =>
          rw [keepOff_cons_of_not_mem h]
          exact (ih (rank + 1)).cons_cons x

/-- If the positions are those of the members without a property, those with it stay. -/
theorem keepOff_eq_filter
    {positions : List Int} {keep : α → Bool} {rank : Nat} {xs : List α}
    (h : ∀ i x, xs[i]? = some x → positions.contains ((rank + i : Nat) : Int) = !keep x) :
    keepOff positions rank xs = xs.filter keep := by
  induction xs generalizing rank with
  | nil =>
      rfl
  | cons x xs ih =>
      have hfirst := h 0 x rfl
      have hrest : keepOff positions (rank + 1) xs = xs.filter keep := by
        apply ih
        intro i y hy
        rw [Nat.add_assoc, Nat.add_comm 1 i]
        exact h (i + 1) y hy
      rw [Nat.add_zero] at hfirst
      cases hkeep : keep x with
      | true =>
          rw [hkeep] at hfirst
          rw [keepOff_cons_of_not_mem hfirst, List.filter_cons_of_pos hkeep, hrest]
      | false =>
          rw [hkeep] at hfirst
          rw [keepOff_cons_of_mem hfirst, List.filter_cons_of_neg (by simp [hkeep]), hrest]

/-- Then the new rank of a member counts the members with the property before it. -/
theorem shift_eq_countP
    {positions : List Int} {keep : α → Bool} {xs : List α}
    (h : ∀ (i : Nat) x, xs[i]? = some x → positions.contains (i : Int) = !keep x)
    {i : Nat}
    (hi : i ≤ xs.length) :
    shift positions i = (xs.take i).countP keep := by
  induction i with
  | zero =>
      rfl
  | succ i ih =>
      have hx : xs[i]? = some xs[i] := List.getElem?_eq_getElem hi
      have hcontains := h i _ hx
      rw [List.take_add_one, hx, List.countP_append, ← ih (Nat.le_of_succ_le hi)]
      cases hkeep : keep xs[i] with
      | true =>
          rw [hkeep] at hcontains
          rw [shift_succ_of_not_mem hcontains]
          simp [hkeep]
      | false =>
          rw [hkeep] at hcontains
          rw [shift_succ_of_mem hcontains]
          simp [hkeep]

/-- Removing one position removes the member at that position. -/
theorem keepOff_singleton
    (position : Nat) (xs : List α) :
    keepOff [(position : Int)] 0 xs = xs.eraseIdx position := by
  have hself :
      ∀ (ys : List α) (rank : Nat), position < rank →
        keepOff [(position : Int)] rank ys = ys := by
    intro ys
    induction ys with
    | nil =>
        intro rank _
        rfl
    | cons y ys ih =>
        intro rank hrank
        have hnot : [(position : Int)].contains (rank : Int) = false := by
          simp
          omega
        rw [keepOff_cons_of_not_mem hnot, ih (rank + 1) (by omega)]
  have herase :
      ∀ (ys : List α) (rank : Nat), rank ≤ position →
        keepOff [(position : Int)] rank ys = ys.eraseIdx (position - rank) := by
    intro ys
    induction ys with
    | nil =>
        intro rank _
        rfl
    | cons y ys ih =>
        intro rank hrank
        by_cases heq : rank = position
        · have hmem : [(position : Int)].contains (rank : Int) = true := by
            simp [heq]
          rw [keepOff_cons_of_mem hmem, hself ys (rank + 1) (by omega), heq, Nat.sub_self]
          rfl
        · have hnot : [(position : Int)].contains (rank : Int) = false := by
            simp
            omega
          have hdiff : position - rank = (position - (rank + 1)) + 1 := by
            omega
          rw [keepOff_cons_of_not_mem hnot, ih (rank + 1) (by omega), hdiff]
          rfl
  exact herase xs 0 (Nat.zero_le position)

end KeepOff

/-- Styles by old ranks stay with the edges that stay if they move to the new ranks. -/
theorem keepOff_restyle
    {positions : List Int} {f g : Nat → EdgeStyle → EdgeStyle}
    (h : ∀ i : Nat, positions.contains (i : Int) = false → g (shift positions i) = f i)
    (rank : Nat) (edges : List Edge) :
    keepOff positions rank (restyle (fun i => f (rank + i)) edges) =
      restyle (fun i => g (shift positions rank + i)) (keepOff positions rank edges) := by
  induction edges generalizing rank with
  | nil =>
      rfl
  | cons e edges ih =>
      have hrest :
          restyle (fun i => f (rank + i)) (e :: edges) =
            { e with style := f rank e.style } ::
              restyle (fun i => f (rank + 1 + i)) edges := by
        unfold restyle
        rw [List.mapIdx_cons]
        congr 2
        funext i k
        dsimp only
        rw [Nat.add_assoc, Nat.add_comm 1 i]
      rw [hrest]
      cases hrank : positions.contains (rank : Int) with
      | true =>
          rw [keepOff_cons_of_mem hrank, keepOff_cons_of_mem hrank, ih,
            shift_succ_of_mem hrank]
      | false =>
          rw [keepOff_cons_of_not_mem hrank, keepOff_cons_of_not_mem hrank, ih,
            shift_succ_of_not_mem hrank, ← h rank hrank]
          unfold restyle
          rw [List.mapIdx_cons]
          congr 2
          funext i k
          dsimp only
          rw [Nat.add_assoc, Nat.add_comm 1 i]

section RemainingLines

/-- The kinds of the lines that stay, with the new indices of link-style lines. -/
def dropKinds (positions : List Int) : Nat → List Line → List Line
  | _, [] => []
  | rank, .edge e :: kinds =>
      if positions.contains (rank : Int) then dropKinds positions (rank + 1) kinds
      else .edge e :: dropKinds positions (rank + 1) kinds
  | rank, .linkStyle i properties :: kinds =>
      if positions.contains (i : Int) then dropKinds positions rank kinds
      else .linkStyle (shift positions i) properties :: dropKinds positions rank kinds
  | rank, kind :: kinds => kind :: dropKinds positions rank kinds

/-- A link-style line as it is after a removal, if it stays. -/
def lowered (positions : List Int) (line : String) (index : Nat) : String :=
  if countBelow positions index = 0 then line
  else renumber line ((index : Int) - countBelow positions index)

theorem dropFrom_cons
    (positions : List Int) (rank : Nat) (line : String) (lines : List String) :
    dropFrom positions rank (line :: lines) =
      match Line.classify line with
      | .edge _ =>
          if positions.contains (rank : Int) then dropFrom positions (rank + 1) lines
          else line :: dropFrom positions (rank + 1) lines
      | .linkStyle index _ =>
          if positions.contains (index : Int) then dropFrom positions rank lines
          else lowered positions line index :: dropFrom positions rank lines
      | _ => line :: dropFrom positions rank lines := by
  rfl

theorem lowered_eq
    {positions : List Int}
    (hpositions : ∀ p ∈ positions, 0 ≤ p)
    (line : String) (index : Nat) :
    lowered positions line index = line ∧ shift positions index = index ∨
      lowered positions line index = renumber line (shift positions index : Nat) := by
  have hsum := countBelow_add_shift hpositions index
  unfold lowered
  split
  · rename_i hzero
    refine Or.inl ⟨rfl, ?_⟩
    omega
  · have hindex :
        (index : Int) - countBelow positions index = (shift positions index : Nat) := by
      omega
    exact Or.inr (by rw [hindex])

theorem classify_lowered
    {positions : List Int} {line : String} {index : Nat} {properties : Properties}
    (hpositions : ∀ p ∈ positions, 0 ≤ p)
    (h : Line.classify line = .linkStyle index properties) :
    Line.classify (lowered positions line index) =
      .linkStyle (shift positions index) properties := by
  have hsum := countBelow_add_shift hpositions index
  rcases lowered_eq hpositions line index with ⟨hsame, hshift⟩ | hnew
  · rw [hsame, hshift]
    exact h
  · rw [hnew]
    exact classify_renumber h (by omega)

/-- The kinds of the remaining lines. -/
theorem map_classify_dropFrom
    {positions : List Int}
    (hpositions : ∀ p ∈ positions, 0 ≤ p)
    (rank : Nat) (lines : List String) :
    (dropFrom positions rank lines).map Line.classify =
      dropKinds positions rank (lines.map Line.classify) := by
  induction lines generalizing rank with
  | nil =>
      rfl
  | cons line lines ih =>
      rw [dropFrom_cons, List.map_cons]
      cases hkind : Line.classify line with
      | edge e =>
          dsimp only [dropKinds]
          split
          · exact ih (rank + 1)
          · rw [List.map_cons, hkind, ih]
      | linkStyle index properties =>
          dsimp only [dropKinds]
          split
          · exact ih rank
          · rw [List.map_cons, classify_lowered hpositions hkind, ih]
      | _ =>
          dsimp only [dropKinds]
          rw [List.map_cons, hkind, ih]

/-- Nothing else than edges and link styles is touched. -/
theorem filterMap_dropKinds
    {α : Type} {view : Line → Option α}
    (hedge : ∀ e, view (.edge e) = none)
    (hlinkStyle : ∀ index properties, view (.linkStyle index properties) = none)
    (positions : List Int) (rank : Nat) (kinds : List Line) :
    (dropKinds positions rank kinds).filterMap view = kinds.filterMap view := by
  induction kinds generalizing rank with
  | nil =>
      rfl
  | cons kind kinds ih =>
      cases kind with
      | edge e =>
          rw [List.filterMap_cons_none (hedge e)]
          unfold dropKinds
          split
          · exact ih (rank + 1)
          · rw [List.filterMap_cons_none (hedge e), ih]
      | linkStyle index properties =>
          rw [List.filterMap_cons_none (hlinkStyle index properties)]
          unfold dropKinds
          split
          · exact ih rank
          · rw [List.filterMap_cons_none (hlinkStyle _ _), ih]
      | _ =>
          unfold dropKinds
          rw [List.filterMap_cons, List.filterMap_cons, ih]

theorem declarations_dropKinds
    (positions : List Int) (rank : Nat) (kinds : List Line) :
    Reading.declarations (dropKinds positions rank kinds) = Reading.declarations kinds :=
  filterMap_dropKinds (fun _ => rfl) (fun _ _ => rfl) positions rank kinds

theorem nodeProperties_dropKinds
    (id : String) (positions : List Int) (rank : Nat) (kinds : List Line) :
    Line.nodeProperties id (dropKinds positions rank kinds) = Line.nodeProperties id kinds :=
  filterMap_dropKinds (fun _ => rfl) (fun _ _ => rfl) positions rank kinds

/-- The remaining edge lines are those whose ranks are not removed. -/
theorem edges_dropKinds
    (positions : List Int) (rank : Nat) (kinds : List Line) :
    Line.edges (dropKinds positions rank kinds) =
      keepOff positions rank (Line.edges kinds) := by
  induction kinds generalizing rank with
  | nil =>
      rfl
  | cons kind kinds ih =>
      cases kind with
      | edge e =>
          have hedges : Line.edges (.edge e :: kinds) = e :: Line.edges kinds := by
            rfl
          rw [hedges]
          unfold dropKinds
          cases hrank : positions.contains (rank : Int) with
          | true =>
              rw [keepOff_cons_of_mem hrank]
              exact ih (rank + 1)
          | false =>
              rw [keepOff_cons_of_not_mem hrank, ← ih]
              rfl
      | linkStyle index properties =>
          unfold dropKinds
          split
          · exact ih rank
          · exact ih rank
      | _ =>
          exact ih rank

/-- What is given to an edge that stays is given to its new rank, and nothing else is. -/
theorem edgeProperties_dropKinds
    {positions : List Int} {i : Nat}
    (hi : positions.contains (i : Int) = false)
    (rank : Nat) (kinds : List Line) :
    Line.edgeProperties (shift positions i) (dropKinds positions rank kinds) =
      Line.edgeProperties i kinds := by
  induction kinds generalizing rank with
  | nil =>
      rfl
  | cons kind kinds ih =>
      cases kind with
      | edge e =>
          unfold dropKinds
          split
          · exact ih (rank + 1)
          · exact ih (rank + 1)
      | linkStyle index properties =>
          rw [Line.edgeProperties_cons]
          unfold dropKinds
          split
          · rename_i hindex
            have hne : index ≠ i := by
              rintro rfl
              rw [hi] at hindex
              cases hindex
            rw [if_neg hne]
            exact ih rank
          · rename_i hindex
            rw [Bool.not_eq_true] at hindex
            rw [Line.edgeProperties_cons]
            by_cases heq : index = i
            · rw [heq, if_pos rfl, if_pos rfl, ih]
            · have hne : shift positions index ≠ shift positions i :=
                fun hshift => heq (shift_injective hindex hi hshift)
              rw [if_neg heq, if_neg hne, ih]
      | _ =>
          exact ih rank

/-- The remaining edges are the others with their labels and styles, numbered anew. -/
theorem modelEdges_dropKinds
    (positions : List Int) (kinds : List Line) :
    Reading.modelEdges (dropKinds positions 0 kinds) =
      renumberEdges (keepOff positions 0 (Reading.modelEdges kinds)) := by
  have hlines :
      Reading.lineEdges (dropKinds positions 0 kinds) =
        keepOff positions 0 (Reading.lineEdges kinds) := by
    unfold Reading.lineEdges
    rw [edges_dropKinds, Reading.styleEdges_eq, Reading.styleEdges_eq, map_keepOff]
    have hkeep :=
      @keepOff_restyle positions
        (fun i s => s.overwriteAll (Line.edgeProperties i kinds))
        (fun i s => s.overwriteAll (Line.edgeProperties i (dropKinds positions 0 kinds)))
        (by
          intro i hi
          funext s
          rw [edgeProperties_dropKinds hi])
        0 ((Line.edges kinds).map EdgeLine.toEdge)
    simp only [Nat.zero_add, shift] at hkeep
    exact hkeep.symm
  rw [Reading.modelEdges_eq, hlines]
  apply renumberEdges_congr
  rw [map_keepOff, map_keepOff, Reading.map_unnumbered_modelEdges,
    Reading.map_unnumbered_lineEdges]

end RemainingLines

section RemainingTexts

theorem isOneLine_renumber
    {line : String}
    (h : IsOneLine line)
    (index : Nat) :
    IsOneLine (renumber line index) := by
  have hdigits : IsOneLine (toString (index : Int)) := by
    intro hmem
    have hindex : (toString (index : Int)).toList = Nat.toDigits 10 index :=
      Nat.toList_repr
    rw [hindex] at hmem
    exact absurd (Text.isDigit_of_mem_toDigits hmem) (by decide)
  unfold renumber
  dsimp only
  split
  · exact h
  · rename_i afterKeyword hafter
    rw [Text.after?_eq_some_iff] at hafter
    split
    · exact h
    · have hstart : ∀ c ∈ Text.trimStart line.toList, c ∈ line.toList :=
        fun c hc => List.dropWhile_subset _ hc
      have hrest : ∀ c ∈ afterKeyword, c ∈ line.toList := by
        intro c hc
        apply hstart
        rw [hafter]
        exact List.mem_append_right _ hc
      simp only [isOneLine_append, isOneLine_ofList, List.mem_append, not_or]
      refine ⟨⟨⟨⟨?_, by decide⟩, ?_⟩, hdigits⟩, ?_⟩
      · exact fun hmem => h (List.takeWhile_subset _ hmem)
      · exact fun hmem => h (hrest _ (List.takeWhile_subset _ hmem))
      · exact fun hmem =>
          h (hrest _ (List.dropWhile_subset _ (List.dropWhile_subset _ hmem)))

theorem isOneLine_lowered
    {positions : List Int} {line : String}
    (hpositions : ∀ p ∈ positions, 0 ≤ p)
    (h : IsOneLine line)
    (index : Nat) :
    IsOneLine (lowered positions line index) := by
  rcases lowered_eq hpositions line index with ⟨hsame, _⟩ | hnew
  · rw [hsame]
    exact h
  · rw [hnew]
    exact isOneLine_renumber h _

theorem mem_dropFrom
    {positions : List Int} {rank : Nat} {lines : List String} {line : String}
    (h : line ∈ dropFrom positions rank lines) :
    line ∈ lines ∨
      ∃ old ∈ lines, ∃ index properties,
        Line.classify old = .linkStyle index properties ∧
          line = lowered positions old index := by
  induction lines generalizing rank with
  | nil =>
      cases h
  | cons first lines ih =>
      have hrest :
          ∀ rank, line ∈ dropFrom positions rank lines →
            line ∈ first :: lines ∨
              ∃ old ∈ first :: lines, ∃ index properties,
                Line.classify old = .linkStyle index properties ∧
                  line = lowered positions old index := by
        intro rank hmem
        rcases ih hmem with hmem | ⟨old, hold, hfound⟩
        · exact Or.inl (List.mem_cons_of_mem _ hmem)
        · exact Or.inr ⟨old, List.mem_cons_of_mem _ hold, hfound⟩
      rw [dropFrom_cons] at h
      cases hkind : Line.classify first with
      | edge e =>
          rw [hkind] at h
          dsimp only at h
          split at h
          · exact hrest _ h
          · rcases List.mem_cons.mp h with rfl | h
            · exact Or.inl List.mem_cons_self
            · exact hrest _ h
      | linkStyle index properties =>
          rw [hkind] at h
          dsimp only at h
          split at h
          · exact hrest _ h
          · rcases List.mem_cons.mp h with rfl | h
            · exact Or.inr ⟨first, List.mem_cons_self, index, properties, hkind, rfl⟩
            · exact hrest _ h
      | _ =>
          rw [hkind] at h
          rcases List.mem_cons.mp h with rfl | h
          · exact Or.inl List.mem_cons_self
          · exact hrest _ h

theorem isOneLine_dropFrom
    {positions : List Int} {lines : List String}
    (hpositions : ∀ p ∈ positions, 0 ≤ p)
    (h : ∀ line ∈ lines, IsOneLine line)
    (rank : Nat) :
    ∀ line ∈ dropFrom positions rank lines, IsOneLine line := by
  intro line hline
  rcases mem_dropFrom hline with hline | ⟨old, hold, index, properties, _, rfl⟩
  · exact h line hline
  · exact isOneLine_lowered hpositions (h old hold) index

theorem isReadable_dropFrom
    {positions : List Int} {lines : List String}
    (hpositions : ∀ p ∈ positions, 0 ≤ p)
    (h : IsReadable lines)
    (rank : Nat) :
    IsReadable (dropFrom positions rank lines) := by
  intro line hline digits
  rcases mem_dropFrom hline with hline | ⟨old, _, index, properties, hkind, rfl⟩
  · exact h line hline digits
  · rw [classify_lowered hpositions hkind]
    simp

end RemainingTexts

end LinkStyle

end Flowchart
