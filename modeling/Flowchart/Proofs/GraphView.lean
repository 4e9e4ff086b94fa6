import Flowchart.Proofs.Incidence

/-!
# The graph of a model that is read

An arc takes the place of another one only if the two have the same ends and the
same id.  Edges between the same ends have different numbers, so the graph of a
model that a text is read as has one arc for each edge, in the order of the edges,
however often an id occurs between other ends.  Since ends are nodes and nodes have
different ids, the graph has exactly the nodes of the model.

* `Graph.nodes_ofModel` and `Graph.arcs_eq`: nodes and arcs are those of the model.
* `Graph.sortedArcs_perm`: the listing by source and target has every arc once.
* `Graph.roots_ofModel` and `Graph.leaves_ofModel`: ends without further edges.
-/

namespace Flowchart

section GrowingRecords

/-- A value at a new key comes last. -/
theorem Record.put_of_not_mem
    {κ α : Type} [BEq κ] [LawfulBEq κ] {key : κ} {record : List (κ × α)}
    (value : α)
    (h : key ∉ record.map (·.1)) :
    put key value record = record ++ [(key, value)] := by
  induction record with
  | nil =>
      rfl
  | cons first record ih =>
      rw [List.map_cons, List.mem_cons, not_or] at h
      have hne : ¬(first.1 == key) = true := fun heq => h.1 (beq_iff_eq.mp heq).symm
      unfold put
      rw [if_neg hne, ih h.2]
      rfl

/-- The members of a list by the values of a key, each value taken once, are the members. -/
theorem flatMap_filter_perm
    {α κ : Type} [BEq κ] [LawfulBEq κ] {key : α → κ} {keys : List κ} {xs : List α}
    (hkeys : keys.Nodup)
    (h : ∀ x ∈ xs, key x ∈ keys) :
    (keys.flatMap fun k => xs.filter (key · == k)).Perm xs := by
  induction keys generalizing xs with
  | nil =>
      have hnone : xs = [] := by
        rw [List.eq_nil_iff_forall_not_mem]
        exact fun x hx => absurd (h x hx) List.not_mem_nil
      rw [hnone]
      exact List.Perm.nil
  | cons first keys ih =>
      obtain ⟨hfirst, hkeys⟩ := List.nodup_cons.mp hkeys
      have hrest : ∀ x ∈ xs.filter (!key · == first), key x ∈ keys := by
        intro x hx
        obtain ⟨hx, hne⟩ := List.mem_filter.mp hx
        rcases List.mem_cons.mp (h x hx) with heq | hmem
        · rw [heq, beq_self_eq_true] at hne
          cases hne
        · exact hmem
      have hsame :
          (keys.flatMap fun k => (xs.filter (!key · == first)).filter (key · == k)) =
            keys.flatMap fun k => xs.filter (key · == k) := by
        apply List.flatMap_congr
        intro k hk
        rw [List.filter_filter]
        apply List.filter_congr
        intro x _
        by_cases heq : key x = k
        · have hne : key x ≠ first := fun hx => hfirst (by rw [← hx, heq]; exact hk)
          simp [heq, heq ▸ hne]
        · simp [heq]
      rw [List.flatMap_cons, ← hsame]
      exact ((ih hkeys hrest).append_left _).trans (List.filter_append_perm _ xs)

end GrowingRecords

/-- The arc of an edge that stands at a position. -/
def Edge.arc (e : Edge) (position : Nat) : Arc :=
  ⟨e.source, e.target, e.id, e.label, position⟩

/-- Numbered edges differ in their ends or in their ids. -/
theorem AreNumbered.nodup_keys
    {edges : List Edge}
    (h : AreNumbered edges) :
    (edges.map fun e => (e.source, e.target, e.id)).Nodup := by
  rw [List.nodup_iff_getElem?_ne_getElem?]
  intro i j hij hj heq
  rw [List.length_map] at hj
  obtain ⟨edge, hedge⟩ : ∃ edge, edges[i]? = some edge :=
    ⟨_, List.getElem?_eq_getElem (Nat.lt_trans hij hj)⟩
  obtain ⟨other, hother⟩ : ∃ other, edges[j]? = some other :=
    ⟨_, List.getElem?_eq_getElem hj⟩
  rw [List.getElem?_map, List.getElem?_map, hedge, hother] at heq
  simp only [Option.map_some, Option.some.injEq, Prod.mk.injEq] at heq
  obtain ⟨hsource, htarget, hid⟩ := heq
  exact Nat.ne_of_lt hij
    (eq_of_same_id_of_same_ends h hedge hother (Prod.ext hsource htarget) hid)

namespace Graph

/-- Nodes of new ids are added in order. -/
theorem foldl_put
    {nodes : List Node} {record : List (String × Option Node)}
    (h : (record.map (·.1) ++ nodes.map (·.id)).Nodup) :
    nodes.foldl (fun record n => Record.put n.id (some n) record) record =
      record ++ nodes.map fun n => (n.id, some n) := by
  induction nodes generalizing record with
  | nil =>
      exact (List.append_nil record).symm
  | cons n nodes ih =>
      have hnew : n.id ∉ record.map (·.1) := by
        intro hmem
        exact (List.nodup_append.mp h).2.2 _ hmem _ List.mem_cons_self rfl
      rw [List.foldl_cons, Record.put_of_not_mem _ hnew, ih]
      · rw [List.append_assoc]
        rfl
      · rw [List.map_append, List.append_assoc]
        exact h

/-- Ends that are nodes already are not added. -/
theorem foldl_addEnd
    {nodes : List (String × Option Node)} {ids : List String}
    (h : ∀ id ∈ ids, id ∈ nodes.map (·.1)) :
    ids.foldl addEnd nodes = nodes := by
  induction ids with
  | nil =>
      rfl
  | cons id ids ih =>
      have hany : nodes.any (·.1 == id) = true := by
        obtain ⟨node, hnode, hid⟩ := List.mem_map.mp (h id List.mem_cons_self)
        exact List.any_eq_true.mpr ⟨node, hnode, beq_iff_eq.mpr hid⟩
      have hadd : addEnd nodes id = nodes := by
        unfold addEnd
        rw [if_pos hany]
      rw [List.foldl_cons, hadd]
      exact ih fun other hother => h other (List.mem_cons_of_mem _ hother)

/-- An arc of a new key comes last. -/
theorem addArc_of_not_mem
    {a : Arc} {arcs : List Arc}
    (h : a.key ∉ arcs.map Arc.key) :
    addArc a arcs = arcs ++ [a] := by
  induction arcs with
  | nil =>
      rfl
  | cons b arcs ih =>
      rw [List.map_cons, List.mem_cons, not_or] at h
      have hne : ¬(b.source == a.source && b.target == a.target && b.id == a.id) = true := by
        intro hsame
        simp only [Bool.and_eq_true, beq_iff_eq] at hsame
        exact h.1 (by simp [Arc.key, hsame])
      unfold addArc
      rw [if_neg hne, ih h.2]
      rfl

/-- Arcs of different keys are added in order. -/
theorem foldl_addEdge
    {ranked : List (Edge × Nat)} {arcs : List Arc}
    (h :
      (arcs.map Arc.key ++ ranked.map fun r => (r.1.source, r.1.target, r.1.id)).Nodup) :
    ranked.foldl addEdge arcs = arcs ++ ranked.map fun r => r.1.arc r.2 := by
  induction ranked generalizing arcs with
  | nil =>
      exact (List.append_nil arcs).symm
  | cons first ranked ih =>
      have hnew : (first.1.arc first.2).key ∉ arcs.map Arc.key := by
        intro hmem
        exact (List.nodup_append.mp h).2.2 _ hmem _ List.mem_cons_self rfl
      have hadd : addEdge arcs first = arcs ++ [first.1.arc first.2] := addArc_of_not_mem hnew
      rw [List.foldl_cons, hadd, ih]
      · rw [List.append_assoc]
        rfl
      · rw [List.map_append, List.append_assoc]
        exact h

/-- Numbered edges give an arc each, in order. -/
theorem arcs_eq
    {m : Model}
    (h : AreNumbered m.edges) :
    (ofModel m).arcs = m.edges.mapIdx fun position e => e.arc position := by
  have hkeys :
      (m.edges.zipIdx.map fun r => (r.1.source, r.1.target, r.1.id)) =
        m.edges.map fun e => (e.source, e.target, e.id) := by
    conv_rhs => rw [← List.zipIdx_map_fst 0 m.edges, List.map_map]
    rfl
  rw [arcs_ofModel, foldl_addEdge (by rw [hkeys]; exact h.nodup_keys),
    List.mapIdx_eq_zipIdx_map]
  rfl

section Reads

variable {kinds : List Line} {m : Model} (h : Reading.Reads kinds m)

include h

/-- The graph of a model that is read has its nodes, and no others. -/
theorem nodes_ofModel :
    (ofModel m).nodes = m.nodes.map fun n => (n.id, some n) := by
  have hnodes :
      m.nodes.foldl (fun record n => Record.put n.id (some n) record) [] =
        m.nodes.map fun n => (n.id, some n) :=
    @foldl_put m.nodes [] h.nodup_nodeIds
  have hends :
      ∀ id ∈ endpoints m.edges, id ∈ (m.nodes.map fun n => (n.id, some n)).map (·.1) := by
    intro id hid
    rw [List.map_map]
    exact h.mem_nodeIds.mpr (Or.inr hid)
  unfold ofModel
  rw [hnodes]
  exact foldl_addEnd hends

theorem nodeIds_ofModel :
    (ofModel m).nodeIds = m.nodeIds := by
  unfold nodeIds
  rw [nodes_ofModel h, List.map_map]
  rfl

end Reads

/-- A graph whose nodes are different and among which both ends of every arc are. -/
structure IsClosed (g : Graph) : Prop where
  nodup : g.nodeIds.Nodup
  source_mem : ∀ a ∈ g.arcs, a.source ∈ g.nodeIds
  target_mem : ∀ a ∈ g.arcs, a.target ∈ g.nodeIds

theorem isClosed_ofModel
    {kinds : List Line} {m : Model}
    (h : Reading.Reads kinds m) :
    (ofModel m).IsClosed := by
  have hends :
      ∀ a ∈ (ofModel m).arcs, a.source ∈ m.nodeIds ∧ a.target ∈ m.nodeIds := by
    intro a ha
    obtain ⟨e, he, hsource, htarget⟩ :=
      (exists_arc_ofModel_iff fun s t _ => a.source = s ∧ a.target = t).mp ⟨a, ha, rfl, rfl⟩
    rw [hsource, htarget]
    exact
      ⟨h.mem_nodeIds.mpr (Or.inr (mem_endpoints.mpr ⟨e, he, Or.inl rfl⟩)),
        h.mem_nodeIds.mpr (Or.inr (mem_endpoints.mpr ⟨e, he, Or.inr rfl⟩))⟩
  rw [← nodeIds_ofModel h] at hends
  refine ⟨?_, fun a ha => (hends a ha).1, fun a ha => (hends a ha).2⟩
  rw [nodeIds_ofModel h]
  exact h.nodup_nodeIds

/-- The listing by source and target has every arc once. -/
theorem sortedArcs_perm
    {g : Graph}
    (hg : g.IsClosed) :
    g.sortedArcs.Perm g.arcs := by
  have hsource :
      ∀ source,
        ((g.successors source).flatMap fun target =>
          (g.leaving source).filter (·.target == target)).Perm (g.leaving source) := by
    intro source
    refine flatMap_filter_perm (nodup_eraseDups _) ?_
    intro a ha
    exact List.mem_eraseDups.mpr (List.mem_map_of_mem ha)
  unfold sortedArcs
  exact (List.Perm.flatMap_left _ fun source _ => hsource source).trans
    (flatMap_filter_perm hg.nodup hg.source_mem)

/-- No arc has some property of its ends if no edge has. -/
theorem isEmpty_filter_arcs
    (m : Model) (p : String → String → Bool) :
    ((ofModel m).arcs.filter fun a => p a.source a.target).isEmpty =
      m.edges.all fun e => !p e.source e.target := by
  have hsome := @exists_arc_ofModel_iff m fun source target _ => p source target = true
  rw [Bool.eq_iff_iff, List.isEmpty_iff, List.filter_eq_nil_iff, List.all_eq_true]
  simp only [Bool.not_eq_true']
  rw [← not_iff_not]
  simpa using hsome

section Ends

variable {kinds : List Line} {m : Model} (h : Reading.Reads kinds m)

include h

/-- The roots are the nodes at which no edge ends. -/
theorem roots_ofModel :
    (ofModel m).roots = m.nodeIds.filter fun id => m.edges.all (·.target != id) := by
  unfold roots
  rw [nodeIds_ofModel h]
  congr 1
  funext id
  exact isEmpty_filter_arcs m fun _ target => target == id

/-- The leaves are the nodes at which no edge starts. -/
theorem leaves_ofModel :
    (ofModel m).leaves = m.nodeIds.filter fun id => m.edges.all (·.source != id) := by
  unfold leaves
  rw [nodeIds_ofModel h]
  congr 1
  funext id
  exact isEmpty_filter_arcs m fun source _ => source == id

end Ends

end Graph

end Flowchart
