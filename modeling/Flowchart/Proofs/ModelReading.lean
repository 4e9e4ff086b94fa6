import Flowchart.Proofs.EdgeNumbers
import Flowchart.Proofs.WrittenLines
import Mathlib.Data.List.Nodup

/-!
# What a reading consists of

A model is read of classified lines exactly if its nodes without their styles are
those that the lines declare and mention, every node has the style that its style
lines give, and the edges are the numbered edge lines.  A diagram whose lines are
whole and readable, and whose model is read of them, is what its text is read as.

Main results: `modelOf_eq_ok_iff`, `isReading_of_ofText` and `IsReading.ofText_text`.
-/

namespace Flowchart

/-- If no two members have the same key, a member is the only one with its own. -/
theorem filter_key_eq_singleton
    {α κ : Type} [BEq κ] [LawfulBEq κ] {key : α → κ} {xs : List α} {x : α}
    (hnodup : (xs.map key).Nodup)
    (hx : x ∈ xs) :
    xs.filter (key · == key x) = [x] := by
  induction xs with
  | nil =>
      cases hx
  | cons y xs ih =>
      rw [List.map_cons, List.nodup_cons] at hnodup
      obtain ⟨hy, hnodup⟩ := hnodup
      rcases List.mem_cons.mp hx with rfl | hx
      · have hrest : xs.filter (key · == key x) = [] := by
          rw [List.filter_eq_nil_iff]
          intro z hz hkey
          rw [← beq_iff_eq.mp hkey] at hy
          exact hy (List.mem_map_of_mem hz)
        simp [hrest]
      · have hne : (key y == key x) = false := by
          rw [beq_eq_false_iff_ne]
          intro hkey
          rw [hkey] at hy
          exact hy (List.mem_map_of_mem hx)
        simp [hne, ih hnodup hx]

/-- Of equal members only the first one is kept. -/
theorem nodup_eraseDups
    {α : Type} [BEq α] [LawfulBEq α] :
    ∀ xs : List α, xs.eraseDups.Nodup
  | [] => by
      rw [List.eraseDups_nil]
      exact List.nodup_nil
  | x :: xs => by
      rw [List.eraseDups_cons, List.nodup_cons]
      refine ⟨?_, nodup_eraseDups _⟩
      intro hmem
      rw [List.mem_eraseDups, List.mem_filter] at hmem
      simp at hmem
termination_by xs => xs.length
decreasing_by
  have hle := List.length_filter_le (fun y => !y == x) xs
  rw [List.length_cons]
  omega

/-- No line has an index of too many digits. -/
def IsReadable (lines : List String) : Prop :=
  ∀ line ∈ lines, ∀ digits, Line.classify line ≠ .overlong digits

theorem read_eq_ok_iff
    {line : String} :
    (Line.read line).map (fun _ => ()) = .ok () ↔
      ∀ digits, Line.classify line ≠ .overlong digits := by
  unfold Line.read
  constructor
  · intro h digits hdigits
    rw [hdigits] at h
    cases h
  · intro h
    split
    · rename_i digits hdigits
      exact absurd hdigits (h digits)
    · rfl

/-- Lines are accepted exactly if they are readable. -/
theorem checkReadable_eq_ok_iff
    {lines : List String} :
    checkReadable lines = .ok () ↔ IsReadable lines := by
  unfold checkReadable IsReadable
  induction lines with
  | nil =>
      exact ⟨fun _ _ hline => absurd hline List.not_mem_nil, fun _ => rfl⟩
  | cons line lines ih =>
      rw [List.forM_eq_forM, List.forM_cons, bind_eq_ok_iff, List.forall_mem_cons, ← ih,
        ← read_eq_ok_iff, List.forM_eq_forM]
      constructor
      · rintro ⟨_, hline, hlines⟩
        exact ⟨hline, hlines⟩
      · rintro ⟨hline, hlines⟩
        exact ⟨(), hline, hlines⟩

namespace Reading

/-- The nodes that some lines declare, one for every node line. -/
def declarations (lines : List Line) : List Node :=
  lines.filterMap fun
    | .node id body => some (declaredNode id body)
    | _ => none

theorem declaredNodes_eq
    (lines : List Line) :
    declaredNodes lines = (declarations lines).foldl declare [] := by
  unfold declaredNodes declarations
  rw [List.foldl_filterMap]
  congr 1
  funext nodes line
  cases line <;> rfl

theorem declare_of_mem
    {nodes : List Node} {n : Node}
    (h : n.id ∈ nodes.map (·.id)) :
    declare nodes n = nodes.map fun m => if m.id == n.id then n else m := by
  have hany : nodes.any (·.id == n.id) = true := by
    simpa [List.any_eq_true, List.mem_map] using h
  unfold declare
  rw [hany]
  rfl

theorem declare_of_not_mem
    {nodes : List Node} {n : Node}
    (h : n.id ∉ nodes.map (·.id)) :
    declare nodes n = nodes ++ [n] := by
  have hany : nodes.any (·.id == n.id) = false := by
    rw [Bool.eq_false_iff]
    intro hany
    exact h (by simpa [List.any_eq_true, List.mem_map] using hany)
  unfold declare
  rw [hany]
  rfl

/-- A repeated declaration keeps the ids, a new one adds its own at the end. -/
theorem map_id_declare
    (nodes : List Node) (n : Node) :
    (declare nodes n).map (·.id) =
      if n.id ∈ nodes.map (·.id) then nodes.map (·.id) else nodes.map (·.id) ++ [n.id] := by
  split
  · rename_i h
    rw [declare_of_mem h, List.map_map]
    apply List.map_congr_left
    intro m _
    by_cases heq : m.id = n.id
    · simp [heq]
    · simp [heq]
  · rename_i h
    rw [declare_of_not_mem h, List.map_append]
    rfl

theorem mem_map_id_declare
    {nodes : List Node} {n : Node} {id : String} :
    id ∈ (declare nodes n).map (·.id) ↔ id ∈ nodes.map (·.id) ∨ id = n.id := by
  rw [map_id_declare]
  split
  · rename_i h
    constructor
    · exact Or.inl
    · rintro (hid | rfl)
      · exact hid
      · exact h
  · rw [List.mem_append, List.mem_singleton]

theorem nodup_declare
    {nodes : List Node} (n : Node)
    (h : (nodes.map (·.id)).Nodup) :
    ((declare nodes n).map (·.id)).Nodup := by
  rw [map_id_declare]
  split
  · exact h
  · rename_i hnot
    rw [List.nodup_append]
    refine ⟨h, by simp, ?_⟩
    intro id hid other hother heq
    rw [List.mem_singleton] at hother
    rw [← hother, ← heq] at hnot
    exact hnot hid

/-- Every node that is declared has its own id. -/
theorem nodup_declaredNodes
    (lines : List Line) :
    ((declaredNodes lines).map (·.id)).Nodup := by
  have hfold :
      ∀ (ds nodes : List Node), (nodes.map (·.id)).Nodup →
        ((ds.foldl declare nodes).map (·.id)).Nodup := by
    intro ds
    induction ds with
    | nil =>
        intro nodes h
        exact h
    | cons n ds ih =>
        intro nodes h
        exact ih _ (nodup_declare n h)
  rw [declaredNodes_eq]
  exact hfold _ _ List.nodup_nil

theorem mem_declare
    {nodes : List Node} {n m : Node}
    (h : m ∈ declare nodes n) :
    m ∈ nodes ∧ m.id ≠ n.id ∨ m = n := by
  by_cases hmem : n.id ∈ nodes.map (·.id)
  · rw [declare_of_mem hmem] at h
    obtain ⟨old, hold, rfl⟩ := List.mem_map.mp h
    split
    · exact Or.inr rfl
    · rename_i hne
      exact Or.inl ⟨hold, by simpa using hne⟩
  · rw [declare_of_not_mem hmem] at h
    rcases List.mem_append.mp h with h | h
    · refine Or.inl ⟨h, ?_⟩
      intro heq
      rw [← heq] at hmem
      exact hmem (List.mem_map_of_mem h)
    · exact Or.inr (List.mem_singleton.mp h)

theorem mem_declaredNodes
    {lines : List Line} {n : Node}
    (h : n ∈ declaredNodes lines) :
    n ∈ declarations lines := by
  have hfold :
      ∀ (ds nodes : List Node), n ∈ ds.foldl declare nodes → n ∈ nodes ∨ n ∈ ds := by
    intro ds
    induction ds with
    | nil =>
        intro nodes h
        exact Or.inl h
    | cons first ds ih =>
        intro nodes h
        rcases ih _ h with h | h
        · rcases mem_declare h with ⟨h, _⟩ | rfl
          · exact Or.inl h
          · exact Or.inr List.mem_cons_self
        · exact Or.inr (List.mem_cons_of_mem _ h)
  rw [declaredNodes_eq] at h
  exact (hfold _ _ h).resolve_left List.not_mem_nil

/-- A declared node is declared and has no style yet. -/
theorem of_mem_declaredNodes
    {lines : List Line} {n : Node}
    (h : n ∈ declaredNodes lines) :
    n.declared = true ∧ n.style = {} := by
  obtain ⟨line, _, hline⟩ := List.mem_filterMap.mp (mem_declaredNodes h)
  cases line with
  | node id body =>
      cases hline
      exact ⟨rfl, rfl⟩
  | _ =>
      cases hline

/-- The ids of the declared nodes are those of the node lines. -/
theorem mem_map_id_declaredNodes
    {lines : List Line} {id : String} :
    id ∈ (declaredNodes lines).map (·.id) ↔ id ∈ (declarations lines).map (·.id) := by
  have hfold :
      ∀ ds nodes : List Node,
        id ∈ (ds.foldl declare nodes).map (·.id) ↔
          id ∈ nodes.map (·.id) ∨ id ∈ ds.map (·.id) := by
    intro ds
    induction ds with
    | nil =>
        intro nodes
        simp
    | cons n ds ih =>
        intro nodes
        rw [List.foldl_cons, ih, map_id_declare, List.map_cons, List.mem_cons]
        split
        · rename_i hmem
          constructor
          · rintro (h | h)
            · exact Or.inl h
            · exact Or.inr (Or.inr h)
          · rintro (h | rfl | h)
            · exact Or.inl h
            · exact Or.inl hmem
            · exact Or.inr h
        · rw [List.mem_append, List.mem_singleton, or_assoc]
  rw [declaredNodes_eq, hfold]
  simp

section Changed

variable {g : Node → Node} (hg : ∀ n, (g n).id = n.id)

include hg

theorem declare_map
    (nodes : List Node) (n : Node) :
    declare (nodes.map g) (g n) = (declare nodes n).map g := by
  have hids : (nodes.map g).map (·.id) = nodes.map (·.id) := by
    rw [List.map_map]
    exact List.map_congr_left fun n _ => hg n
  by_cases hmem : n.id ∈ nodes.map (·.id)
  · rw [declare_of_mem hmem, declare_of_mem (by rw [hids, hg]; exact hmem),
      List.map_map, List.map_map]
    apply List.map_congr_left
    intro m _
    simp only [Function.comp_apply, hg]
    split <;> rfl
  · rw [declare_of_not_mem hmem, declare_of_not_mem (by rw [hids, hg]; exact hmem),
      List.map_append]
    rfl

/-- Declarations may be changed before or after they are put in their places. -/
theorem foldl_declare_map
    (ds nodes : List Node) :
    (ds.map g).foldl declare (nodes.map g) = (ds.foldl declare nodes).map g := by
  induction ds generalizing nodes with
  | nil =>
      rfl
  | cons n ds ih =>
      rw [List.map_cons, List.foldl_cons, List.foldl_cons, declare_map hg]
      exact ih _

end Changed

/-- Keeping the nodes of some ids does not depend on what a declaration replaces. -/
theorem filter_replace
    (keep : String → Bool) (nodes : List Node) (n : Node) :
    (nodes.map fun m => if m.id == n.id then n else m).filter (fun m => keep m.id) =
      (nodes.filter fun m => keep m.id).map fun m => if m.id == n.id then n else m := by
  rw [List.filter_map]
  congr 2
  funext m
  by_cases heq : m.id = n.id
  · simp [heq]
  · simp [heq]

theorem filter_declare_of_keep
    {keep : String → Bool} {n : Node}
    (hkeep : keep n.id = true)
    (nodes : List Node) :
    (declare nodes n).filter (fun m => keep m.id) =
      declare (nodes.filter fun m => keep m.id) n := by
  have hids :
      n.id ∈ (nodes.filter fun m => keep m.id).map (·.id) ↔ n.id ∈ nodes.map (·.id) := by
    simp only [List.mem_map, List.mem_filter]
    constructor
    · rintro ⟨m, ⟨hm, _⟩, heq⟩
      exact ⟨m, hm, heq⟩
    · rintro ⟨m, hm, heq⟩
      exact ⟨m, ⟨hm, by rw [heq]; exact hkeep⟩, heq⟩
  by_cases hmem : n.id ∈ nodes.map (·.id)
  · rw [declare_of_mem hmem, declare_of_mem (hids.mpr hmem)]
    exact filter_replace keep nodes n
  · rw [declare_of_not_mem hmem, declare_of_not_mem fun h => hmem (hids.mp h),
      List.filter_append]
    simp [hkeep]

theorem filter_declare_of_not_keep
    {keep : String → Bool} {n : Node}
    (hkeep : keep n.id = false)
    (nodes : List Node) :
    (declare nodes n).filter (fun m => keep m.id) = nodes.filter fun m => keep m.id := by
  by_cases hmem : n.id ∈ nodes.map (·.id)
  · rw [declare_of_mem hmem, filter_replace]
    have hsame :
        ∀ m ∈ nodes.filter fun m => keep m.id, (if m.id == n.id then n else m) = m := by
      intro m hm
      have hm := (List.mem_filter.mp hm).2
      have hne : m.id ≠ n.id := by
        intro heq
        rw [heq, hkeep] at hm
        cases hm
      simp [hne]
    rw [List.map_congr_left hsame, List.map_id']
  · rw [declare_of_not_mem hmem, List.filter_append]
    simp [hkeep]

/-- The declarations of some ids are put in their places without the others. -/
theorem foldl_declare_filter
    (keep : String → Bool) (ds nodes : List Node) :
    (ds.filter fun n => keep n.id).foldl declare (nodes.filter fun n => keep n.id) =
      (ds.foldl declare nodes).filter fun n => keep n.id := by
  induction ds generalizing nodes with
  | nil =>
      rfl
  | cons n ds ih =>
      rw [List.foldl_cons, ← ih, List.filter_cons]
      cases hkeep : keep n.id with
      | true =>
          rw [filter_declare_of_keep hkeep]
          rfl
      | false =>
          rw [filter_declare_of_not_keep hkeep]
          rfl

end Reading

/-- A node without its style. -/
def Node.plain (n : Node) : Node := { n with style := {} }

@[simp] theorem Node.plain_id
    (n : Node) :
    n.plain.id = n.id := by
  rfl

@[simp] theorem Node.plain_declared
    (n : Node) :
    n.plain.declared = n.declared := by
  rfl

theorem Node.eq_of_plain_eq
    {m n : Node}
    (hplain : m.plain = n.plain)
    (hstyle : m.style = n.style) :
    m = n := by
  have hback : ∀ k : Node, k = { k.plain with style := k.style } := by
    intro k
    rfl
  rw [hback m, hback n, hplain, hstyle]

namespace Reading

theorem plainNodes_eq
    (lines : List Line) :
    plainNodes lines =
      declaredNodes lines ++
        (newEnds ((declaredNodes lines).map (·.id)) (endpoints (modelEdges lines))).map
          placeholder := by
  have hends :
      endpoints (edgesFrom [] (Line.edges lines)) = endpoints (modelEdges lines) := by
    apply endpoints_congr
    unfold modelEdges
    rw [styleEdges_eq, map_ends_restyle]
  unfold plainNodes
  rw [completeNodes_eq, hends]
  rfl

theorem map_id_plainNodes
    (lines : List Line) :
    (plainNodes lines).map (·.id) =
      (declaredNodes lines).map (·.id) ++
        newEnds ((declaredNodes lines).map (·.id)) (endpoints (modelEdges lines)) := by
  have hplaceholders : ∀ ids : List String, (ids.map placeholder).map (·.id) = ids := by
    intro ids
    rw [List.map_map]
    exact List.map_id' ids
  rw [plainNodes_eq, List.map_append, hplaceholders]

/-- No two nodes of a text have the same id. -/
theorem nodup_plainNodes
    (lines : List Line) :
    ((plainNodes lines).map (·.id)).Nodup := by
  rw [map_id_plainNodes, List.nodup_append]
  refine ⟨nodup_declaredNodes lines, nodup_newEnds _ _, ?_⟩
  rintro id hid _ hnew rfl
  exact (mem_newEnds.mp hnew).2 hid

theorem style_of_mem_plainNodes
    {lines : List Line} {n : Node}
    (h : n ∈ plainNodes lines) :
    n.style = {} := by
  rw [plainNodes_eq] at h
  rcases List.mem_append.mp h with h | h
  · exact (of_mem_declaredNodes h).2
  · obtain ⟨id, _, rfl⟩ := List.mem_map.mp h
    rfl

/-- A model is what some lines declare, mention and style. -/
structure Reads (lines : List Line) (m : Model) : Prop where
  nodes : m.nodes.map Node.plain = plainNodes lines
  styles : ∀ n ∈ m.nodes, Line.styleOf lines n.id = .ok n.style
  edges : m.edges = modelEdges lines

/-- A node without a style of its own gets the style of its id, or the fault of that style. -/
theorem styleNode_eq
    {lines : List Line} {n : Node}
    (hstyle : n.style = {}) :
    (do return { n with style := ← n.style.overwriteAll (Line.nodeProperties n.id lines) } :
        Except Fault Node) =
      Line.styleOf lines n.id >>= fun style => .ok { n with style } := by
  rw [hstyle]
  rfl

theorem styleNode_eq_ok_iff
    {lines : List Line} {n n' : Node}
    (hstyle : n.style = {}) :
    (do return { n with style := ← n.style.overwriteAll (Line.nodeProperties n.id lines) } :
        Except Fault Node) = .ok n' ↔
      n'.plain = n ∧ Line.styleOf lines n'.id = .ok n'.style := by
  have hplain : n.plain = n := by
    unfold Node.plain
    rw [← hstyle]
  rw [styleNode_eq hstyle, bind_eq_ok_iff]
  constructor
  · rintro ⟨s, hs, hn⟩
    cases hn
    exact ⟨hplain, hs⟩
  · rintro ⟨rfl, hs⟩
    exact ⟨n'.style, hs, rfl⟩

/-- The nodes of some lines after all style lines are those nodes with the styles of their ids. -/
theorem styleNodes_eq_ok_iff
    {lines : List Line} {nodes : List Node} :
    styleNodes lines (plainNodes lines) = .ok nodes ↔
      nodes.map Node.plain = plainNodes lines ∧
        ∀ n ∈ nodes, Line.styleOf lines n.id = .ok n.style := by
  rw [styleNodes_eq (nodup_plainNodes lines), mapM_eq_ok_iff]
  have hstyles : ∀ n ∈ plainNodes lines, n.style = {} := fun _ => style_of_mem_plainNodes
  generalize plainNodes lines = plain at hstyles
  induction plain generalizing nodes with
  | nil =>
      rw [List.forall₂_nil_left_iff, List.map_eq_nil_iff]
      constructor
      · rintro rfl
        exact ⟨rfl, fun _ hn => absurd hn List.not_mem_nil⟩
      · exact And.left
  | cons n plain ih =>
      rw [List.forall_mem_cons] at hstyles
      rw [List.forall₂_cons_left_iff, List.map_eq_cons_iff]
      constructor
      · rintro ⟨n', nodes', hn, hrest, rfl⟩
        obtain ⟨hplain, hstyle⟩ := (styleNode_eq_ok_iff hstyles.1).mp hn
        obtain ⟨hplains, hall⟩ := (ih hstyles.2).mp hrest
        exact ⟨⟨n', nodes', rfl, hplain, hplains⟩, List.forall_mem_cons.mpr ⟨hstyle, hall⟩⟩
      · rintro ⟨⟨n', nodes', rfl, hplain, hplains⟩, hall⟩
        rw [List.forall_mem_cons] at hall
        exact ⟨n', nodes', (styleNode_eq_ok_iff hstyles.1).mpr ⟨hplain, hall.1⟩,
          (ih hstyles.2).mpr ⟨hplains, hall.2⟩, rfl⟩

/-- The model of some lines is the one that they declare, mention and style. -/
theorem modelOf_eq_ok_iff
    {lines : List Line} {m : Model} :
    modelOf lines = .ok m ↔ Reads lines m := by
  unfold modelOf
  rw [bind_eq_ok_iff]
  constructor
  · rintro ⟨nodes, hread, hm⟩
    cases hm
    obtain ⟨hplains, hstyles⟩ := styleNodes_eq_ok_iff.mp hread
    exact ⟨hplains, hstyles, rfl⟩
  · rintro ⟨hplains, hstyles, hedges⟩
    refine ⟨m.nodes, styleNodes_eq_ok_iff.mpr ⟨hplains, hstyles⟩, ?_⟩
    unfold modelEdges at hedges
    rw [← hedges]
    rfl

/-- Declared nodes that stand before the others are the first part of the nodes. -/
theorem filter_declared_append
    {front back : List Node}
    (hfront : ∀ n ∈ front, n.declared = true)
    (hback : ∀ n ∈ back, n.declared = false) :
    (front ++ back).filter (·.declared) = front ∧
      (front ++ back).filter (!·.declared) = back := by
  rw [List.filter_append, List.filter_append]
  constructor
  · rw [List.filter_eq_self.mpr hfront,
      List.filter_eq_nil_iff.mpr fun n hn => by simp [hback n hn], List.append_nil]
  · rw [List.filter_eq_nil_iff.mpr fun n hn => by simp [hfront n hn],
      List.filter_eq_self.mpr fun n hn => by simp [hback n hn], List.nil_append]

/-- A former placeholder is the one of its id if no other node has that id. -/
theorem former_eq_of_unique
    {previous : List Node} {n : Node}
    (hunique : ∀ k ∈ previous, k.id = n.id → k = n)
    (hn : n ∈ previous)
    (hdeclared : n.declared = false) :
    former previous n.id = n := by
  unfold former
  cases hfind : previous.reverse.find? fun k => !k.declared && k.id == n.id with
  | none =>
      have hnone := List.find?_eq_none.mp hfind n (List.mem_reverse.mpr hn)
      simp [hdeclared] at hnone
  | some k =>
      have hk := List.find?_some hfind
      simp only [Bool.and_eq_true, Bool.not_eq_true', beq_iff_eq] at hk
      exact hunique k (List.mem_reverse.mp (List.mem_of_find?_eq_some hfind)) hk.2

/-- Where no two nodes have the same id, the placeholders are the former ones of their ids. -/
theorem map_former_of_nodup
    {nodes : List Node}
    (hnodup : (nodes.map (·.id)).Nodup) :
    ((nodes.filter (!·.declared)).map (·.id)).map (former nodes) =
      nodes.filter (!·.declared) := by
  have hsame : ∀ n ∈ nodes.filter (!·.declared), (former nodes ∘ (·.id)) n = n := by
    intro n hn
    obtain ⟨hmem, hdeclared⟩ := List.mem_filter.mp hn
    exact former_eq_of_unique
      (fun k hk hid => List.inj_on_of_nodup_map hnodup hk hmem hid) hmem
      (by simpa using hdeclared)
  rw [List.map_map, List.map_congr_left hsame, List.map_id']

section Reads

variable {lines : List Line} {m : Model}
  (h : Reads lines m)

include h

/-- The nodes are the declared ones followed by the placeholders. -/
theorem Reads.nodes_eq :
    ∃ declared rest,
      m.nodes = declared ++ rest ∧
      declared.map Node.plain = declaredNodes lines ∧
      rest.map Node.plain =
        (newEnds ((declaredNodes lines).map (·.id)) (endpoints (modelEdges lines))).map
          placeholder := by
  have hnodes := h.nodes
  rw [plainNodes_eq, List.map_eq_append_iff] at hnodes
  obtain ⟨declared, rest, hsplit, hdeclared, hrest⟩ := hnodes
  exact ⟨declared, rest, hsplit, hdeclared, hrest⟩

theorem Reads.declared_eq :
    m.declared.map Node.plain = declaredNodes lines ∧
      (m.nodes.filter (!·.declared)).map Node.plain =
        (newEnds ((declaredNodes lines).map (·.id)) (endpoints (modelEdges lines))).map
          placeholder ∧
      m.nodes = m.declared ++ m.nodes.filter (!·.declared) := by
  obtain ⟨declared, rest, hsplit, hdeclared, hrest⟩ := h.nodes_eq
  have hall : ∀ n ∈ declared, n.declared = true := by
    intro n hn
    have hmem : n.plain ∈ declaredNodes lines := by
      rw [← hdeclared]
      exact List.mem_map_of_mem hn
    exact (of_mem_declaredNodes hmem).1
  have hnone : ∀ n ∈ rest, n.declared = false := by
    intro n hn
    have hmem := List.mem_map_of_mem (f := Node.plain) hn
    rw [hrest] at hmem
    obtain ⟨id, _, hid⟩ := List.mem_map.mp hmem
    rw [← n.plain_declared, ← hid]
    rfl
  obtain ⟨hfirst, hsecond⟩ := filter_declared_append hall hnone
  unfold Model.declared
  rw [hsplit, hfirst, hsecond]
  exact ⟨hdeclared, hrest, rfl⟩

theorem Reads.map_id_declared :
    m.declared.map (·.id) = (declaredNodes lines).map (·.id) := by
  rw [← h.declared_eq.1, List.map_map]
  rfl

theorem Reads.map_id_placeholders :
    (m.nodes.filter (!·.declared)).map (·.id) =
      newEnds (m.declared.map (·.id)) (endpoints m.edges) := by
  have hids :
      ∀ ids : List String, (ids.map placeholder).map (·.id) = ids := by
    intro ids
    rw [List.map_map]
    exact List.map_id' ids
  have hplain := congrArg (List.map (·.id)) h.declared_eq.2.1
  rw [hids, List.map_map] at hplain
  rw [h.map_id_declared, h.edges, ← hplain]
  rfl

/-- An id is that of a node if it is declared or an end of an edge. -/
theorem Reads.mem_nodeIds
    {id : String} :
    id ∈ m.nodeIds ↔ id ∈ m.declared.map (·.id) ∨ id ∈ endpoints m.edges := by
  unfold Model.nodeIds
  rw [h.declared_eq.2.2, List.map_append, List.mem_append, h.map_id_placeholders, mem_newEnds]
  by_cases hmem : id ∈ m.declared.map (·.id)
  · simp [hmem]
  · simp [hmem]

/-- No two nodes have the same id. -/
theorem Reads.nodup_nodeIds :
    m.nodeIds.Nodup := by
  have hids : m.nodes.map (·.id) = (plainNodes lines).map (·.id) := by
    rw [← h.nodes, List.map_map]
    rfl
  unfold Model.nodeIds
  rw [hids]
  exact nodup_plainNodes lines

/-- A node that is not declared is a placeholder but for its style. -/
theorem Reads.plain_of_not_declared
    {n : Node}
    (hn : n ∈ m.nodes)
    (hdeclared : n.declared = false) :
    n.plain = placeholder n.id := by
  have hmem : n.plain ∈ (m.nodes.filter (!·.declared)).map Node.plain :=
    List.mem_map_of_mem (List.mem_filter.mpr ⟨hn, by simp [hdeclared]⟩)
  rw [h.declared_eq.2.1] at hmem
  obtain ⟨id, _, hid⟩ := List.mem_map.mp hmem
  rw [← hid, ← n.plain_id, ← hid]
  rfl

theorem Reads.eq_of_id_eq
    {n n' : Node}
    (hn : n ∈ m.nodes)
    (hn' : n' ∈ m.nodes)
    (hid : n.id = n'.id) :
    n = n' := by
  have hnodup : (m.nodes.map (·.id)).Nodup := h.nodup_nodeIds
  exact List.inj_on_of_nodup_map hnodup hn hn' hid

/-- Among some nodes of the model, the former placeholder of an id is the node of it. -/
theorem Reads.former_eq
    {previous : List Node} {n : Node}
    (hprevious : ∀ k ∈ previous, k ∈ m.nodes)
    (hn : n ∈ previous)
    (hdeclared : n.declared = false) :
    former previous n.id = n :=
  former_eq_of_unique (fun k hk hid => h.eq_of_id_eq (hprevious k hk) (hprevious n hn) hid) hn
    hdeclared

/-- The placeholders of a model are the former ones of its own ends. -/
theorem Reads.map_former :
    (newEnds (m.declared.map (·.id)) (endpoints m.edges)).map (former m.nodes) =
      m.nodes.filter (!·.declared) := by
  rw [← h.map_id_placeholders]
  exact map_former_of_nodup h.nodup_nodeIds

/-- A further declared node of a new id leaves the other nodes as they are. -/
theorem Reads.completeNodes_declare
    {n : Node}
    (hid : n.id ∉ m.nodeIds) :
    completeNodes (m.declared ++ [n]) m.edges m.nodes =
      m.declared ++ n :: m.nodes.filter (!·.declared) := by
  have hfilter :
      (newEnds (m.declared.map (·.id)) (endpoints m.edges)).filter (· != n.id) =
        newEnds (m.declared.map (·.id)) (endpoints m.edges) := by
    rw [List.filter_eq_self]
    intro id hmem
    rw [bne_iff_ne]
    rintro rfl
    exact hid (h.mem_nodeIds.mpr (Or.inr (mem_newEnds.mp hmem).1))
  rw [completeNodes_eq, List.map_append, List.map_singleton, newEnds_append_singleton, hfilter,
    h.map_former, List.append_assoc, List.singleton_append]

/-- Further edges add placeholders for the ends that are not ids of nodes. -/
theorem Reads.completeNodes_append
    (edges : List Edge) :
    completeNodes m.declared (m.edges ++ edges) m.nodes =
      m.nodes ++ (newEnds m.nodeIds (endpoints edges)).map placeholder := by
  have hids :
      m.declared.map (·.id) ++ newEnds (m.declared.map (·.id)) (endpoints m.edges) =
        m.nodeIds := by
    unfold Model.nodeIds
    rw [← h.map_id_placeholders, ← List.map_append, ← h.declared_eq.2.2]
  have hformer :
      (newEnds m.nodeIds (endpoints edges)).map (former m.nodes) =
        (newEnds m.nodeIds (endpoints edges)).map placeholder := by
    apply List.map_congr_left
    intro id hid
    rcases (former_spec m.nodes id).2.2 with hmem | hnew
    · have hnode := List.mem_map_of_mem (f := (·.id)) hmem
      rw [former_id] at hnode
      exact absurd hnode (mem_newEnds.mp hid).2
    · exact hnew
  rw [completeNodes_eq, endpoints_append, newEnds_append, List.map_append, hids, h.map_former,
    hformer, ← List.append_assoc, ← h.declared_eq.2.2]

end Reads

end Reading

section DiagramTexts

/-- A diagram that its text is read as. -/
structure Diagram.IsReading (d : Diagram) : Prop where
  oneLine : ∀ line ∈ d.lines, IsOneLine line
  readable : IsReadable d.lines
  reads : Reading.Reads (d.lines.map Line.classify) d.model

theorem ofLines_eq_ok_iff
    {lines : List String} {d : Diagram} :
    (do return (← Reading.ofLines lines).diagram) = .ok d ↔
      d.lines = lines ∧ IsReadable lines ∧
        Reading.Reads (lines.map Line.classify) d.model := by
  unfold Reading.ofLines
  rw [bind_eq_ok_iff]
  constructor
  · rintro ⟨r, hr, hd⟩
    obtain ⟨_, hreadable, hr⟩ := bind_eq_ok_iff.mp hr
    obtain ⟨m, hm, hr⟩ := bind_eq_ok_iff.mp hr
    cases hr
    cases hd
    exact ⟨rfl, checkReadable_eq_ok_iff.mp hreadable, Reading.modelOf_eq_ok_iff.mp hm⟩
  · rintro ⟨rfl, hreadable, hreads⟩
    refine ⟨_, bind_eq_ok_iff.mpr ⟨(), checkReadable_eq_ok_iff.mpr hreadable,
      bind_eq_ok_iff.mpr ⟨d.model, Reading.modelOf_eq_ok_iff.mpr hreads, rfl⟩⟩, rfl⟩

theorem ofText_eq_ok_iff
    {text : String} {d : Diagram} :
    Diagram.ofText text = .ok d ↔
      d.lines = splitLines text ∧ IsReadable (splitLines text) ∧
        Reading.Reads ((splitLines text).map Line.classify) d.model :=
  ofLines_eq_ok_iff

theorem isReading_of_ofText
    {text : String} {d : Diagram}
    (h : Diagram.ofText text = .ok d) :
    d.IsReading := by
  obtain ⟨hlines, hreadable, hreads⟩ := ofText_eq_ok_iff.mp h
  rw [← hlines] at hreadable hreads
  refine ⟨?_, hreadable, hreads⟩
  intro line hline
  rw [hlines] at hline
  exact isOneLine_of_mem_splitLines hline

/-- A diagram that is not a single empty line is read back from its text. -/
theorem Diagram.IsReading.ofText_text
    {d : Diagram}
    (h : d.IsReading)
    (hne : d.lines ≠ [""]) :
    Diagram.ofText d.text = .ok d := by
  have hlines : splitLines d.text = d.lines := splitLines_joinLines h.oneLine hne
  rw [ofText_eq_ok_iff, hlines]
  exact ⟨rfl, h.readable, h.reads⟩

/-- The model of a diagram is read back from its text; of the lines, one empty line is lost. -/
theorem Diagram.IsReading.ofText_text_model
    {d : Diagram}
    (h : d.IsReading) :
    ∃ r, Diagram.ofText d.text = .ok r ∧ r.model = d.model ∧
      (r.lines = d.lines ∨ d.lines = [""] ∧ r.lines = []) := by
  by_cases hne : d.lines = [""]
  · have hempty : Line.classify "" = .other "" :=
      Line.classify_of_isBlankLine rfl
    have hsplit : splitLines d.text = [] := by
      unfold Diagram.text
      rw [hne]
      rfl
    have hmodel := Reading.modelOf_eq_ok_iff.mpr h.reads
    rw [hne, List.map_singleton, hempty] at hmodel
    refine ⟨⟨[], d.model⟩, ?_, rfl, Or.inr ⟨hne, rfl⟩⟩
    rw [ofText_eq_ok_iff, hsplit]
    exact ⟨rfl, fun _ hline => absurd hline List.not_mem_nil,
      Reading.modelOf_eq_ok_iff.mp hmodel⟩
  · exact ⟨d, h.ofText_text hne, rfl, Or.inl rfl⟩

end DiagramTexts

end Flowchart
