import Flowchart.NodeId
import Flowchart.Proofs.ModelReading
import Mathlib.Data.List.Perm.Subperm
import Mathlib.Order.Bounds.Basic

/-!
# Fresh node ids

The numbers that are tried for a new id are one more than the ids in use, and
different numbers make different ids, so one of them is free.  A search that has no
bound therefore ends, at the same number, and what is in use is what the model has
for its nodes.

* `next_not_mem_used`: the next id is not in use.
* `mem_used_iff`: the ids in use are those of node lines and of the ends of edge lines.
* `least_free_number_is_given`: where the search ends, and the number that it gives.
-/

namespace Flowchart
namespace NodeId

/-- Different numbers make different ids. -/
theorem numbered_injective
    (stem : String) :
    Function.Injective fun n : Nat => stem ++ toString n := by
  intro m n h
  have htexts : stem.toList ++ (toString m).toList = stem.toList ++ (toString n).toList := by
    simpa only [String.toList_append] using congrArg String.toList h
  have hdigits : Nat.toDigits 10 m = Nat.toDigits 10 n := by
    simpa only [Nat.toString_eq_repr, Nat.toList_repr] using
      List.append_cancel_left htexts
  have hnumbers := congrArg Text.number hdigits
  rwa [Text.number_toDigits, Text.number_toDigits] at hnumbers

/-- The search stops at a free number, or every number that it tried is taken. -/
theorem firstFree_spec
    (taken : List String) (stem : String) (fuel n : Nat) :
    stem ++ toString (firstFree taken stem fuel n) ∉ taken ∨
      ∀ k, n ≤ k → k < n + fuel → stem ++ toString k ∈ taken := by
  induction fuel generalizing n with
  | zero =>
      refine Or.inr ?_
      intro k hlow hhigh
      omega
  | succ fuel ih =>
      unfold firstFree
      split
      · rename_i htaken
        rw [List.contains_iff_mem] at htaken
        rcases ih (n + 1) with hfree | hall
        · exact Or.inl hfree
        · refine Or.inr ?_
          intro k hlow hhigh
          by_cases hk : k = n
          · rw [hk]
            exact htaken
          · exact hall k (by omega) (by omega)
      · rename_i hfree
        rw [List.contains_iff_mem] at hfree
        exact Or.inl hfree

theorem firstFree_eq_of_all_taken
    {taken : List String} {stem : String} {fuel n : Nat}
    (h : ∀ k, n ≤ k → k < n + fuel → stem ++ toString k ∈ taken) :
    firstFree taken stem fuel n = n + fuel := by
  induction fuel generalizing n with
  | zero =>
      rfl
  | succ fuel ih =>
      have htaken : taken.contains (stem ++ toString n) = true := by
        rw [List.contains_iff_mem]
        exact h n (Nat.le_refl n) (by omega)
      unfold firstFree
      rw [if_pos htaken, ih fun k hlow hhigh => h k (by omega) (by omega)]
      omega

/-- As many numbers as there are ids, and one more, cannot all be taken. -/
theorem exists_free
    (taken : List String) (stem : String) :
    ∃ k, 1 ≤ k ∧ k ≤ 1 + taken.length ∧ stem ++ toString k ∉ taken := by
  by_contra hnone
  have hsubset :
      (List.range' 1 (taken.length + 1)).map (fun k => stem ++ toString k) ⊆ taken := by
    intro id hid
    obtain ⟨k, hk, rfl⟩ := List.mem_map.mp hid
    rw [List.mem_range'_1] at hk
    by_contra hfree
    exact hnone ⟨k, hk.1, by omega, hfree⟩
  have hnodup :
      ((List.range' 1 (taken.length + 1)).map fun k => stem ++ toString k).Nodup :=
    List.Nodup.map (numbered_injective stem) List.nodup_range'
  have hlength := (hnodup.subperm hsubset).length_le
  rw [List.length_map, List.length_range'] at hlength
  omega

theorem firstFree_not_mem
    (taken : List String) (stem : String) :
    stem ++ toString (firstFree taken stem taken.length 1) ∉ taken := by
  rcases firstFree_spec taken stem taken.length 1 with hfree | hall
  · exact hfree
  · rw [firstFree_eq_of_all_taken hall]
    obtain ⟨k, hlow, hhigh, hfree⟩ := exists_free taken stem
    have hk : k = 1 + taken.length := by
      by_contra hne
      exact hfree (hall k hlow (by omega))
    rw [← hk]
    exact hfree

/-- The next id is not in use. -/
theorem next_not_mem_used
    (lines : List String) (stem : String) :
    next lines stem ∉ used lines :=
  firstFree_not_mem (used lines) stem

/-- A line mentions the id that it declares or the ends of its edge. -/
theorem mem_mentioned_iff
    {kinds : List Line} {id : String} :
    id ∈ kinds.flatMap mentioned ↔
      id ∈ (Reading.declarations kinds).map (·.id) ∨
        id ∈ endpoints ((Line.edges kinds).map EdgeLine.toEdge) := by
  induction kinds with
  | nil =>
      simp [Reading.declarations, Line.edges, endpoints]
  | cons kind kinds ih =>
      rw [List.flatMap_cons, List.mem_append, ih]
      cases kind with
      | node owner body =>
          simp [mentioned, Reading.declarations, Line.edges, Reading.declaredNode, or_assoc]
      | edge e =>
          have hdeclarations :
              Reading.declarations (.edge e :: kinds) = Reading.declarations kinds := by
            rfl
          have hends :
              endpoints ((Line.edges (.edge e :: kinds)).map EdgeLine.toEdge) =
                e.source :: e.target ::
                  endpoints ((Line.edges kinds).map EdgeLine.toEdge) := by
            rfl
          rw [hdeclarations, hends]
          simp only [mentioned, List.mem_cons, List.not_mem_nil, or_false]
          constructor
          · rintro ((hsource | htarget) | hdeclared | hend)
            · exact Or.inr (Or.inl hsource)
            · exact Or.inr (Or.inr (Or.inl htarget))
            · exact Or.inl hdeclared
            · exact Or.inr (Or.inr (Or.inr hend))
          · rintro (hdeclared | hsource | htarget | hend)
            · exact Or.inr (Or.inl hdeclared)
            · exact Or.inl (Or.inl hsource)
            · exact Or.inl (Or.inr htarget)
            · exact Or.inr (Or.inr hend)
      | _ =>
          simp [mentioned, Reading.declarations, Line.edges]

/-- The ids in use are those of node lines and of the ends of edge lines. -/
theorem mem_used_iff_edges
    {lines : List String} {id : String} :
    id ∈ used lines ↔
      id ∈ (Reading.declarations (lines.map Line.classify)).map (·.id) ∨
        id ∈ endpoints ((Line.edges (lines.map Line.classify)).map EdgeLine.toEdge) := by
  have hlines :
      (lines.flatMap fun line => mentioned (Line.classify line)) =
        (lines.map Line.classify).flatMap mentioned := by
    rw [List.flatMap_map]
  unfold used
  rw [List.mem_eraseDups, hlines]
  exact mem_mentioned_iff

/-- The ids in use are those of node lines and of the ends of the edges that are read. -/
theorem mem_used_iff
    {lines : List String} {id : String} :
    id ∈ used lines ↔
      id ∈ (Reading.declarations (lines.map Line.classify)).map (·.id) ∨
        id ∈ endpoints (Reading.modelEdges (lines.map Line.classify)) := by
  have hends :
      endpoints (Reading.modelEdges (lines.map Line.classify)) =
        endpoints ((Line.edges (lines.map Line.classify)).map EdgeLine.toEdge) := by
    apply endpoints_congr
    rw [Reading.map_ends_modelEdges, List.map_map]
    rfl
  rw [hends]
  exact mem_used_iff_edges

/--
The search from a number on, without a bound: it stops at a number that makes a free
id, and goes on from one that does not.  The candidates are counted.
-/
inductive Searches (taken : List String) (stem : String) : (n candidates found : Nat) → Prop
  | stop {n : Nat} :
      stem ++ toString n ∉ taken →
      Searches taken stem n 1 n
  | goOn {n candidates found : Nat} :
      stem ++ toString n ∈ taken →
      Searches taken stem (n + 1) candidates found →
      Searches taken stem n (candidates + 1) found

section Search

variable {taken : List String} {stem : String} {n candidates found : Nat}

/-- A search that ends has found a free number, and tried every number before it once. -/
theorem Searches.spec
    (h : Searches taken stem n candidates found) :
    n + candidates = found + 1 ∧ stem ++ toString found ∉ taken ∧
      ∀ k, n ≤ k → k < found → stem ++ toString k ∈ taken := by
  induction h with
  | stop hfree =>
      refine ⟨rfl, hfree, ?_⟩
      intro k hlow hhigh
      omega
  | @goOn n candidates found htaken _ ih =>
      obtain ⟨hcount, hfree, hpassed⟩ := ih
      refine ⟨by omega, hfree, ?_⟩
      intro k hlow hhigh
      by_cases hk : k = n
      · rw [hk]
        exact htaken
      · exact hpassed k (by omega) hhigh

theorem Searches.pos
    (h : Searches taken stem n candidates found) :
    0 < candidates := by
  cases h with
  | stop _ =>
      exact Nat.one_pos
  | goOn _ _ =>
      exact Nat.succ_pos _

/-- A search ends in one way only. -/
theorem Searches.unique
    {candidates' found' : Nat}
    (h : Searches taken stem n candidates found)
    (h' : Searches taken stem n candidates' found') :
    candidates' = candidates ∧ found' = found := by
  obtain ⟨hcount, hfree, hpassed⟩ := h.spec
  obtain ⟨hcount', hfree', hpassed'⟩ := h'.spec
  have hpos := h.pos
  have hpos' := h'.pos
  have heq : found' = found := by
    rcases Nat.lt_trichotomy found' found with hlt | heq | hgt
    · exact absurd (hpassed found' (by omega) hlt) hfree'
    · exact heq
    · exact absurd (hpassed' found (by omega) hgt) hfree
  exact ⟨by omega, heq⟩

/-- The bounded search ends like the one without a bound if it ends at a free number. -/
theorem searches_firstFree
    {fuel : Nat}
    (hfree : stem ++ toString (firstFree taken stem fuel n) ∉ taken) :
    ∃ candidates ≤ fuel + 1,
      Searches taken stem n candidates (firstFree taken stem fuel n) := by
  induction fuel generalizing n with
  | zero =>
      exact ⟨1, Nat.le_refl 1, .stop hfree⟩
  | succ fuel ih =>
      unfold firstFree at hfree ⊢
      split
      · rename_i htaken
        rw [if_pos htaken] at hfree
        obtain ⟨candidates, hle, hsearch⟩ := ih hfree
        exact ⟨candidates + 1, by omega, .goOn (List.contains_iff_mem.mp htaken) hsearch⟩
      · rename_i htaken
        rw [if_neg htaken] at hfree
        exact ⟨1, by omega, .stop hfree⟩

end Search

/-- The ids in use are those of the nodes that are read. -/
theorem mem_used_iff_mem_nodeIds
    {lines : List String} {m : Model} {id : String}
    (h : Reading.Reads (lines.map Line.classify) m) :
    id ∈ used lines ↔ id ∈ m.nodeIds := by
  rw [mem_used_iff, h.mem_nodeIds, h.map_id_declared, Reading.mem_map_id_declaredNodes, h.edges]

/--
New ids are fresh, and their numbers are the least ones.  The ids in use are those of
the nodes of the model, each once.  The search for a number ends in exactly one way,
after at most one candidate more than there are ids in use, and the number that it
finds is the least one from 1 on that makes no id of a node.
-/
theorem least_free_number_is_given
    {text : String} {d : Diagram}
    (hd : Diagram.ofText text = .ok d)
    (stem : String) :
    (∀ id, id ∈ used (splitLines text) ↔ id ∈ d.model.nodeIds) ∧
      (used (splitLines text)).Nodup ∧
      ∃ candidates n,
        (∀ candidates' n',
          Searches (used (splitLines text)) stem 1 candidates' n' ↔
            candidates' = candidates ∧ n' = n) ∧
        candidates ≤ (used (splitLines text)).length + 1 ∧
        next (splitLines text) stem = stem ++ toString n ∧
        IsLeast {k | 1 ≤ k ∧ stem ++ toString k ∉ d.model.nodeIds} n := by
  have hused : ∀ id, id ∈ used (splitLines text) ↔ id ∈ d.model.nodeIds := fun _ =>
    mem_used_iff_mem_nodeIds (ofText_eq_ok_iff.mp hd).2.2
  obtain ⟨candidates, hle, hsearch⟩ :=
    searches_firstFree (firstFree_not_mem (used (splitLines text)) stem)
  obtain ⟨hcount, hfree, hpassed⟩ := hsearch.spec
  refine ⟨hused, nodup_eraseDups _, candidates, _, ?_, hle, rfl, ?_, ?_⟩
  · intro candidates' n'
    constructor
    · exact hsearch.unique
    · rintro ⟨rfl, rfl⟩
      exact hsearch
  · have hpos := hsearch.pos
    exact ⟨by omega, fun hmem => hfree ((hused _).mpr hmem)⟩
  · rintro k ⟨hlow, hnone⟩
    by_contra hlt
    exact hnone ((hused _).mp (hpassed k hlow (Nat.lt_of_not_le hlt)))

/-- A gap between two ids, one of them of a node that only an edge mentions, is filled. -/
theorem least_free_number_is_given_of_gap :
    ∃ d : Diagram,
      Diagram.ofText "node3[x]\nA --> node1" = .ok d ∧
      d.model.nodeIds = ["node3", "A", "node1"] ∧
      next (splitLines "node3[x]\nA --> node1") "node" = "node2" ∧
      Searches (used (splitLines "node3[x]\nA --> node1")) "node" 1 2 2 ∧
      IsLeast {k | 1 ≤ k ∧ "node" ++ toString k ∉ d.model.nodeIds} 2 := by
  have hd :
      Diagram.ofText "node3[x]\nA --> node1" =
        .ok {
          lines := ["node3[x]", "A --> node1"]
          model := {
            nodes := [
              { id := "node3", label := "x" }, placeholder "A", placeholder "node1"]
            edges := [{ id := "edge_A_node1", source := "A", target := "node1" }] } } := by
    rfl
  have hnext : next (splitLines "node3[x]\nA --> node1") "node" = "node2" := by
    decide +kernel
  have hsearch : Searches (used (splitLines "node3[x]\nA --> node1")) "node" 1 2 2 :=
    .goOn (by decide +kernel) (.stop (by decide +kernel))
  obtain ⟨_, _, candidates, n, hunique, _, _, hleast⟩ := least_free_number_is_given hd "node"
  obtain ⟨rfl, rfl⟩ := (hunique 2 2).mp hsearch
  exact ⟨_, hd, rfl, hnext, hsearch, hleast⟩

end NodeId

end Flowchart
