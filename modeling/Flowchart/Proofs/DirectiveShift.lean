import Flowchart.Proofs.EdgeRemoval
import Mathlib.Data.Finset.Card
import Mathlib.Data.Finset.Filter

/-!
# Link styles across a removal

Here a removal is described by the lines themselves.  The edge lines that stay are
those at the other ranks, every link-style line that stays says the same of the
same edge under its new rank, one that named no edge names none afterwards, and
all other lines are as they were.

* `shift_ofNat`: the new rank is the old one less the removed positions below it.
* `edgeLines_dropFrom`: the edge lines that stay.
* `directives_dropKinds`: the link-style lines that stay, with their new indices.
* `dropEdges_keeps_directives`: what a removal does to a text.
-/

namespace Flowchart

namespace Line

/-- Whether a line is an edge line. -/
def isEdge : Line → Bool
  | edge _ => true
  | _ => false

/-- Whether a line is neither an edge line nor a link-style line. -/
def isPlain : Line → Bool
  | edge _ => false
  | linkStyle _ _ => false
  | _ => true

/-- The link-style lines among some lines, each as an index and its properties. -/
def directives (lines : List Line) : List (Nat × Properties) :=
  lines.filterMap fun
    | linkStyle index properties => some (index, properties)
    | _ => none

end Line

/-- The edge lines of a text as they are written. -/
def edgeLines (lines : List String) : List String :=
  lines.filter fun line => (Line.classify line).isEdge

/-- The lines of a text that are neither edge lines nor link-style lines. -/
def plainLines (lines : List String) : List String :=
  lines.filter fun line => (Line.classify line).isPlain

theorem edgeLines_cons_of_edge
    {line : String}
    (h : (Line.classify line).isEdge = true)
    (lines : List String) :
    edgeLines (line :: lines) = line :: edgeLines lines :=
  List.filter_cons_of_pos h

theorem edgeLines_cons_of_not_edge
    {line : String}
    (h : (Line.classify line).isEdge = false)
    (lines : List String) :
    edgeLines (line :: lines) = edgeLines lines :=
  List.filter_cons_of_neg (by rw [h]; exact Bool.false_ne_true)

theorem plainLines_cons_of_plain
    {line : String}
    (h : (Line.classify line).isPlain = true)
    (lines : List String) :
    plainLines (line :: lines) = line :: plainLines lines :=
  List.filter_cons_of_pos h

theorem plainLines_cons_of_not_plain
    {line : String}
    (h : (Line.classify line).isPlain = false)
    (lines : List String) :
    plainLines (line :: lines) = plainLines lines :=
  List.filter_cons_of_neg (by rw [h]; exact Bool.false_ne_true)

namespace LinkStyle

open Line

section CountedRanks

/-- The rank of an edge less the number of removed positions below it. -/
def rankAfter (removed : List Nat) (i : Nat) : Nat :=
  i - {p ∈ removed.toFinset | p < i}.card

theorem contains_ofNat
    (removed : List Nat) (i : Nat) :
    (removed.map Int.ofNat).contains (i : Int) = decide (i ∈ removed) := by
  rw [Bool.eq_iff_iff, List.contains_iff_mem, decide_eq_true_eq]
  constructor
  · intro h
    obtain ⟨p, hp, heq⟩ := List.mem_map.mp h
    rwa [← Int.ofNat.inj heq]
  · exact fun h => List.mem_map_of_mem h

theorem nonneg_ofNat
    (removed : List Nat) :
    ∀ p ∈ removed.map Int.ofNat, 0 ≤ p := by
  intro p hp
  obtain ⟨n, _, rfl⟩ := List.mem_map.mp hp
  exact Int.natCast_nonneg n

/-- The positions below an index, one for each member of their set. -/
theorem countBelow_ofNat
    (removed : List Nat) (i : Nat) :
    countBelow (removed.map Int.ofNat) i = {p ∈ removed.toFinset | p < i}.card := by
  induction i with
  | zero =>
      have hsum := countBelow_add_shift (nonneg_ofNat removed) 0
      have hnone : {p ∈ removed.toFinset | p < 0} = ∅ := by
        simp
      rw [hnone, Finset.card_empty]
      omega
  | succ i ih =>
      rw [countBelow_succ, ih, contains_ofNat]
      simp only [decide_eq_true_eq]
      by_cases hi : i ∈ removed
      · have hinsert :
            {p ∈ removed.toFinset | p < i + 1} =
              insert i {p ∈ removed.toFinset | p < i} := by
          ext p
          simp only [Finset.mem_filter, Finset.mem_insert, List.mem_toFinset]
          constructor
          · rintro ⟨hp, hlt⟩
            rcases Nat.lt_succ_iff_lt_or_eq.mp hlt with hlt | heq
            · exact Or.inr ⟨hp, hlt⟩
            · exact Or.inl heq
          · rintro (rfl | ⟨hp, hlt⟩)
            · exact ⟨hi, Nat.lt_succ_self _⟩
            · exact ⟨hp, Nat.lt_succ_of_lt hlt⟩
        rw [if_pos hi, hinsert, Finset.card_insert_of_notMem (by simp)]
      · have hsame :
            {p ∈ removed.toFinset | p < i + 1} = {p ∈ removed.toFinset | p < i} := by
          apply Finset.filter_congr
          intro p hp
          have hne : p ≠ i := by
            rintro rfl
            exact hi (List.mem_toFinset.mp hp)
          omega
        rw [if_neg hi, hsame, Nat.add_zero]

/-- The new rank is the old one less the removed positions below it. -/
theorem shift_ofNat
    (removed : List Nat) (i : Nat) :
    shift (removed.map Int.ofNat) i = rankAfter removed i := by
  have hsum := countBelow_add_shift (nonneg_ofNat removed) i
  rw [countBelow_ofNat] at hsum
  unfold rankAfter
  omega

end CountedRanks

section KeepOff

variable {α : Type} (positions : List Int)

theorem keepOff_eq_filter_zipIdx
    (rank : Nat) (xs : List α) :
    keepOff positions rank xs =
      ((xs.zipIdx rank).filter fun x => !positions.contains (x.2 : Int)).map Prod.fst := by
  induction xs generalizing rank with
  | nil =>
      rfl
  | cons x xs ih =>
      rw [List.zipIdx_cons, List.filter_cons]
      cases h : positions.contains (rank : Int) with
      | true =>
          rw [keepOff_cons_of_mem h, ih]
          rfl
      | false =>
          rw [keepOff_cons_of_not_mem h, ih]
          rfl

theorem length_keepOff
    (rank : Nat) (xs : List α) :
    shift positions rank + (keepOff positions rank xs).length =
      shift positions (rank + xs.length) := by
  induction xs generalizing rank with
  | nil =>
      rfl
  | cons x xs ih =>
      have hrest := ih (rank + 1)
      rw [List.length_cons, Nat.add_comm xs.length 1, ← Nat.add_assoc, ← hrest]
      cases h : positions.contains (rank : Int) with
      | true =>
          rw [keepOff_cons_of_mem h, shift_succ_of_mem h]
      | false =>
          rw [keepOff_cons_of_not_mem h, shift_succ_of_not_mem h, List.length_cons]
          omega

/-- A member that stays stands at its new rank. -/
theorem getElem?_keepOff
    {i : Nat}
    (rank : Nat) (xs : List α)
    (hi : positions.contains ((rank + i : Nat) : Int) = false) :
    (keepOff positions rank xs)[shift positions (rank + i) - shift positions rank]? =
      xs[i]? := by
  induction xs generalizing rank i with
  | nil =>
      rfl
  | cons x xs ih =>
      cases i with
      | zero =>
          rw [Nat.add_zero] at hi ⊢
          rw [keepOff_cons_of_not_mem hi, Nat.sub_self]
          rfl
      | succ i =>
          have hnext : rank + (i + 1) = rank + 1 + i := by
            omega
          rw [hnext] at hi ⊢
          rw [List.getElem?_cons_succ, ← ih (rank + 1) hi]
          have hle := shift_le_shift positions (Nat.le_add_right (rank + 1) i)
          cases h : positions.contains (rank : Int) with
          | true =>
              rw [keepOff_cons_of_mem h, shift_succ_of_mem h]
          | false =>
              rw [shift_succ_of_not_mem h] at hle ⊢
              have hdiff :
                  shift positions (rank + 1 + i) - shift positions rank =
                    shift positions (rank + 1 + i) - (shift positions rank + 1) + 1 := by
                omega
              rw [keepOff_cons_of_not_mem h, hdiff, List.getElem?_cons_succ]

end KeepOff

section Lines

variable {positions : List Int} (hpositions : ∀ p ∈ positions, 0 ≤ p)
include hpositions

/-- The edge lines that stay are those whose ranks are not removed. -/
theorem edgeLines_dropFrom
    (rank : Nat) (lines : List String) :
    edgeLines (dropFrom positions rank lines) = keepOff positions rank (edgeLines lines) := by
  induction lines generalizing rank with
  | nil =>
      rfl
  | cons line lines ih =>
      rw [dropFrom_cons]
      cases hkind : Line.classify line with
      | edge e =>
          have hline : (Line.classify line).isEdge = true := by
            rw [hkind]
            rfl
          rw [edgeLines_cons_of_edge hline]
          dsimp only
          cases hrank : positions.contains (rank : Int) with
          | true =>
              rw [if_pos rfl, keepOff_cons_of_mem hrank, ih]
          | false =>
              rw [if_neg Bool.false_ne_true, keepOff_cons_of_not_mem hrank,
                edgeLines_cons_of_edge hline, ih]
      | linkStyle index properties =>
          rw [edgeLines_cons_of_not_edge (by rw [hkind]; rfl)]
          dsimp only
          split
          · exact ih rank
          · have hlowered := classify_lowered hpositions hkind
            rw [edgeLines_cons_of_not_edge (by rw [hlowered]; rfl), ih]
      | _ =>
          have hline : (Line.classify line).isEdge = false := by
            rw [hkind]
            rfl
          rw [edgeLines_cons_of_not_edge hline, edgeLines_cons_of_not_edge hline, ih]

/-- Lines of other kinds stay as they are. -/
theorem plainLines_dropFrom
    (rank : Nat) (lines : List String) :
    plainLines (dropFrom positions rank lines) = plainLines lines := by
  induction lines generalizing rank with
  | nil =>
      rfl
  | cons line lines ih =>
      rw [dropFrom_cons]
      cases hkind : Line.classify line with
      | edge e =>
          have hline : (Line.classify line).isPlain = false := by
            rw [hkind]
            rfl
          rw [plainLines_cons_of_not_plain hline]
          dsimp only
          split
          · exact ih (rank + 1)
          · rw [plainLines_cons_of_not_plain hline, ih]
      | linkStyle index properties =>
          rw [plainLines_cons_of_not_plain (by rw [hkind]; rfl)]
          dsimp only
          split
          · exact ih rank
          · have hlowered := classify_lowered hpositions hkind
            rw [plainLines_cons_of_not_plain (by rw [hlowered]; rfl), ih]
      | _ =>
          have hline : (Line.classify line).isPlain = true := by
            rw [hkind]
            rfl
          rw [plainLines_cons_of_plain hline, plainLines_cons_of_plain hline, ih]

end Lines

/-- The link-style lines that stay are those of other indices, each at its new index. -/
theorem directives_dropKinds
    (positions : List Int) (rank : Nat) (kinds : List Line) :
    directives (dropKinds positions rank kinds) =
      (directives kinds).filterMap fun directive =>
        if positions.contains (directive.1 : Int) then none
        else some (shift positions directive.1, directive.2) := by
  induction kinds generalizing rank with
  | nil =>
      rfl
  | cons kind kinds ih =>
      cases kind with
      | edge e =>
          unfold dropKinds
          split
          · exact ih (rank + 1)
          · exact ih (rank + 1)
      | linkStyle index properties =>
          have hfirst :
              ∀ (i : Nat) (kinds : List Line),
                directives (.linkStyle i properties :: kinds) =
                  (i, properties) :: directives kinds := by
            intro i kinds
            rfl
          unfold dropKinds
          rw [hfirst, List.filterMap_cons]
          split
          · exact ih rank
          · rw [hfirst, ih]
      | _ =>
          exact ih rank

section Removal

/-- A text after the removal of the edges at some ranks. -/
structure IsRemoval (removed : List Nat) (lines out : List String) : Prop where
  /-- The other edge lines stay, as they are written and in their order. -/
  edgeLines_eq :
    edgeLines out = ((edgeLines lines).zipIdx.filter fun x => decide (x.2 ∉ removed)).map Prod.fst
  /-- An edge that stays has its new rank, and there all that it was given, line by line. -/
  kept :
    ∀ i < (edgeLines lines).length, i ∉ removed →
      (edgeLines out)[rankAfter removed i]? = (edgeLines lines)[i]? ∧
        edgeProperties (rankAfter removed i) (out.map Line.classify) =
          edgeProperties i (lines.map Line.classify)
  /-- The link-style lines that stay are those of the other indices. -/
  directives_eq :
    directives (out.map Line.classify) =
      (directives (lines.map Line.classify)).filterMap fun directive =>
        if directive.1 ∈ removed then none
        else some (rankAfter removed directive.1, directive.2)
  /-- An index that names no edge names none afterwards. -/
  beyond :
    ∀ k, (edgeLines lines).length ≤ k → k ∉ removed →
      (edgeLines out).length ≤ rankAfter removed k
  /-- All lines of other kinds stay, in their order. -/
  plainLines_eq : plainLines out = plainLines lines

/--
Removing the edges at some positions keeps the other edge lines and all lines of
other kinds.  What link-style lines say of an edge that stays, they say of it at
its new rank; those of removed positions go, and those that named no edge still
name none.
-/
theorem dropEdges_keeps_directives
    (lines : List String) (removed : List Nat) :
    IsRemoval removed lines (dropEdges lines (removed.map Int.ofNat)) := by
  have hpositions := nonneg_ofNat removed
  have hstays : ∀ i ∉ removed, (removed.map Int.ofNat).contains (i : Int) = false := by
    intro i hi
    rw [contains_ofNat, decide_eq_false hi]
  have hedges := edgeLines_dropFrom hpositions 0 lines
  unfold dropEdges
  constructor
  · rw [hedges, keepOff_eq_filter_zipIdx]
    simp only [contains_ofNat, decide_not]
  · intro i _ hi
    have hget := getElem?_keepOff (removed.map Int.ofNat) 0 (edgeLines lines)
      (by rw [Nat.zero_add]; exact hstays i hi)
    constructor
    · rw [hedges, ← hget, Nat.zero_add, shift_ofNat]
      rfl
    · rw [map_classify_dropFrom hpositions, ← shift_ofNat,
        edgeProperties_dropKinds (hstays i hi)]
  · rw [map_classify_dropFrom hpositions, directives_dropKinds]
    simp only [contains_ofNat, shift_ofNat, decide_eq_true_eq]
  · intro k hk _
    have hlength := length_keepOff (removed.map Int.ofNat) 0 (edgeLines lines)
    have hle := shift_le_shift (removed.map Int.ofNat) hk
    rw [hedges, ← shift_ofNat]
    simp only [shift, Nat.zero_add] at hlength
    omega
  · exact plainLines_dropFrom hpositions 0 lines

/-- The red line follows its edge down, and the blue one still names no edge. -/
theorem dropEdges_keeps_directives_of_first_edge :
    let lines :=
      [ "flowchart LR", " linkStyle 01 stroke:red;", "A --> B", "B -->|x| C",
        "linkStyle 0 stroke:green", "linkStyle 7 stroke:blue" ]
    let out := dropEdges lines ([0, 0].map Int.ofNat)
    edgeLines out = ["B -->|x| C"] ∧
      edgeProperties 0 (out.map Line.classify) = [[("stroke", "red")]] ∧
      directives (out.map Line.classify) =
        [(0, [("stroke", "red")]), (6, [("stroke", "blue")])] ∧
      plainLines out = ["flowchart LR"] := by
  intro lines out
  have h := dropEdges_keeps_directives lines [0, 0]
  refine ⟨h.edgeLines_eq.trans (by decide +kernel), ?_, h.directives_eq.trans (by decide +kernel),
    h.plainLines_eq.trans (by decide +kernel)⟩
  exact (h.kept 1 (by decide +kernel) (by decide)).2.trans (by decide +kernel)

end Removal

end LinkStyle

end Flowchart
