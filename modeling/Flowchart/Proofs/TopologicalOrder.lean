import Flowchart.Proofs.GraphView
import Mathlib.Data.List.Perm.Basic
import Mathlib.Logic.Relation
import Mathlib.Order.WellFoundedSet

/-!
# Topological order

A node waits for the arcs into it whose sources are not sorted yet.  Sorting a node
lowers the numbers of its successors by the arcs that lead to them, so what is kept
of a node is always the number of arcs that it still waits for, and each generation
consists of the nodes of which that number has just become zero.  The nodes that are
left at the end all wait for another one of them.  As there are finitely many, some
of them lie on a cycle; and on a cycle every node waits for ever.

* `Graph.release_tally`: what one node changes in the numbers of the others.
* `Graph.generations_spec`: what all generations together come to.
* `Graph.hasCycle_iff`: some nodes are left exactly if there is a cycle.
* `graph_view_of_text`: the graph of a text shows its model, and its order is topological.
-/

namespace Flowchart
namespace Graph

/-- The number of arcs into a node whose sources are not among those that are done. -/
def pending (g : Graph) (done : List String) (id : String) : Nat :=
  g.arcs.countP fun a => a.target == id && !done.contains a.source

section Pending

variable {g : Graph} {done : List String} {source id : String}

theorem pending_eq_zero_iff :
    g.pending done id = 0 ↔ ∀ a ∈ g.arcs, a.target = id → a.source ∈ done := by
  unfold pending
  rw [List.countP_eq_zero]
  simp

theorem pending_eq_zero_mono
    {later : List String}
    (hlater : ∀ other ∈ done, other ∈ later)
    (h : g.pending done id = 0) :
    g.pending later id = 0 :=
  pending_eq_zero_iff.mpr fun a ha htarget => hlater _ (pending_eq_zero_iff.mp h a ha htarget)

/-- A node that is done takes its arcs away. -/
theorem pending_append
    (hsource : source ∉ done) :
    g.pending done id = g.multiplicity source id + g.pending (done ++ [source]) id := by
  unfold pending multiplicity leaving
  rw [List.countP_eq_countP_filter_add _ _ (·.source == source), List.countP_filter,
    List.countP_filter, List.countP_filter]
  congr 1
  · apply List.countP_congr
    intro a _
    by_cases ha : a.source = source
    · simp [ha, hsource]
    · simp [ha]
  · apply List.countP_congr
    intro a _
    simp [and_assoc]

theorem mem_successors :
    id ∈ g.successors source ↔ 0 < g.multiplicity source id := by
  unfold successors multiplicity
  rw [List.mem_eraseDups, List.mem_map, List.countP_pos_iff]
  simp only [beq_iff_eq]

/-- Successors wait for a node that is not done. -/
theorem pending_ne_zero_of_mem_successors
    (hsource : source ∉ done)
    (h : id ∈ g.successors source) :
    g.pending done id ≠ 0 := by
  have hcount := mem_successors.mp h
  rw [pending_append hsource]
  omega

theorem target_mem_of_mem_successors
    (hg : g.IsClosed)
    (h : id ∈ g.successors source) :
    id ∈ g.nodeIds := by
  obtain ⟨a, ha, rfl⟩ := List.mem_map.mp (List.mem_eraseDups.mp h)
  exact hg.target_mem a (List.mem_of_mem_filter ha)

end Pending

/-- The ids of which a number is not zero, with that number. -/
def tally (number : String → Nat) (ids : List String) : Waiting :=
  ids.filterMap fun id => if number id = 0 then none else some (id, number id)

section Tally

variable {number : String → Nat} {ids : List String} {id : String}

theorem tally_cons_of_zero
    (h : number id = 0) :
    tally number (id :: ids) = tally number ids := by
  unfold tally
  rw [List.filterMap_cons_none (by rw [if_pos h])]

theorem tally_cons_of_ne_zero
    (h : number id ≠ 0) :
    tally number (id :: ids) = (id, number id) :: tally number ids := by
  unfold tally
  rw [List.filterMap_cons_some (by rw [if_neg h])]

theorem tally_congr
    {other : String → Nat}
    (h : ∀ id ∈ ids, number id = other id) :
    tally number ids = tally other ids := by
  unfold tally
  apply List.filterMap_congr
  intro id hid
  rw [h id hid]

theorem tally_eq_nil_iff :
    tally number ids = [] ↔ ∀ id ∈ ids, number id = 0 := by
  unfold tally
  rw [List.filterMap_eq_nil_iff]
  simp

/-- Lowering the number of an id changes that number, and tells whether it becomes zero. -/
theorem lower_tally
    {target : String} {count : Nat}
    (hids : ids.Nodup)
    (htarget : target ∈ ids)
    (hpositive : number target ≠ 0) :
    lower target count (tally number ids) =
      (tally (fun id => if id = target then number id - count else number id) ids,
        decide (number target ≤ count)) := by
  induction ids with
  | nil =>
      cases htarget
  | cons first ids ih =>
      obtain ⟨hfirst, hids⟩ := List.nodup_cons.mp hids
      by_cases heq : first = target
      · subst heq
        have hrest :
            tally (fun id => if id = first then number id - count else number id) ids =
              tally number ids := by
          apply tally_congr
          intro id hid
          exact if_neg fun h : id = first => hfirst (h ▸ hid)
        rw [tally_cons_of_ne_zero hpositive]
        unfold lower
        rw [if_pos (beq_self_eq_true first)]
        by_cases hle : number first ≤ count
        · rw [if_pos hle, decide_eq_true hle, tally_cons_of_zero (by rw [if_pos rfl]; omega),
            hrest]
        · rw [if_neg hle, decide_eq_false hle,
            tally_cons_of_ne_zero (by rw [if_pos rfl]; omega),
            hrest, if_pos rfl]
      · have ih := ih hids ((List.mem_cons.mp htarget).resolve_left (Ne.symm heq))
        have hsame : (if first = target then number first - count else number first) =
            number first := if_neg heq
        by_cases hzero : number first = 0
        · rw [tally_cons_of_zero hzero, tally_cons_of_zero (hsame.trans hzero)]
          exact ih
        · rw [tally_cons_of_ne_zero hzero, tally_cons_of_ne_zero (by rw [hsame]; exact hzero),
            hsame]
          unfold lower
          rw [if_neg (by simpa using heq), ih]

/-- Lowering the numbers of some ids, where those follow that become zero. -/
theorem foldl_lower
    {targets : List String} {count : String → Nat}
    (hids : ids.Nodup)
    (htargets : targets.Nodup)
    (hmem : ∀ target ∈ targets, target ∈ ids)
    (hpositive : ∀ target ∈ targets, number target ≠ 0)
    (freed : List String) :
    targets.foldl (fun (waiting, freed) target =>
        let (waiting, free) := lower target (count target) waiting
        (waiting, if free then freed ++ [target] else freed)) (tally number ids, freed) =
      (tally (fun id => if id ∈ targets then number id - count id else number id) ids,
        freed ++ targets.filter fun target => number target ≤ count target) := by
  induction targets generalizing number freed with
  | nil =>
      simp
  | cons first targets ih =>
      obtain ⟨hfirst, htargets⟩ := List.nodup_cons.mp htargets
      have hother :
          ∀ target ∈ targets,
            (if target = first then number target - count first else number target) =
              number target :=
        fun target htarget => if_neg fun h : target = first => hfirst (h ▸ htarget)
      rw [List.foldl_cons]
      dsimp only
      rw [lower_tally hids (hmem first List.mem_cons_self)
        (hpositive first List.mem_cons_self)]
      dsimp only
      rw [ih htargets (fun t ht => hmem t (List.mem_cons_of_mem _ ht))
        (fun t ht => by rw [hother t ht]; exact hpositive t (List.mem_cons_of_mem _ ht))]
      congr 1
      · apply tally_congr
        intro id _
        by_cases hid : id = first
        · subst hid
          simp [hfirst]
        · simp [hid]
      · have hfilter :
            (targets.filter fun target =>
              decide ((if target = first then number target - count first
                else number target) ≤ count target)) =
              targets.filter fun target => decide (number target ≤ count target) := by
          apply List.filter_congr
          intro target htarget
          rw [hother target htarget]
        rw [hfilter, List.filter_cons]
        split
        · rw [List.append_assoc, List.singleton_append]
        · rfl

end Tally

section Release

variable {g : Graph}

/-- Taking away the arcs of a node, the others wait for those that are left. -/
theorem release_tally
    {done : List String} {source : String}
    (hg : g.IsClosed)
    (hsource : source ∉ done)
    (freed : List String) :
    g.release (tally (g.pending done) g.nodeIds, freed) source =
      (tally (g.pending (done ++ [source])) g.nodeIds,
        freed ++ (g.successors source).filter fun target =>
          g.pending (done ++ [source]) target = 0) := by
  have hlower :=
    @foldl_lower _ _ _ (g.multiplicity source) hg.nodup (nodup_eraseDups _)
      (fun _ htarget => target_mem_of_mem_successors hg htarget)
      (fun _ htarget => pending_ne_zero_of_mem_successors hsource htarget) freed
  refine hlower.trans ?_
  congr 1
  · apply tally_congr
    intro id _
    rw [pending_append hsource]
    split
    · omega
    · rename_i hnot
      have hcount : ¬0 < g.multiplicity source id := fun h => hnot (mem_successors.mpr h)
      omega
  · congr 1
    apply List.filter_congr
    intro target _
    rw [pending_append hsource, decide_eq_decide]
    omega

/-- The nodes that waited for others than the first ones, and for no others than later ones. -/
structure AreFreed (g : Graph) (first later freed : List String) : Prop where
  nodup : freed.Nodup
  mem_iff :
    ∀ id,
      id ∈ freed ↔ id ∈ g.nodeIds ∧ g.pending first id ≠ 0 ∧ g.pending later id = 0

theorem areFreed_nil
    (g : Graph) (first : List String) :
    g.AreFreed first first [] := by
  refine ⟨List.nodup_nil, ?_⟩
  intro id
  simp only [List.not_mem_nil, false_iff, not_and]
  exact fun _ hwaits hfree => hwaits hfree

/-- The nodes that a further node frees are new, and there are no others. -/
theorem AreFreed.append
    {first done freed : List String} {source : String}
    (hg : g.IsClosed)
    (hsource : source ∉ done)
    (hfirst : ∀ id ∈ first, id ∈ done)
    (h : g.AreFreed first done freed) :
    g.AreFreed first (done ++ [source])
      (freed ++ (g.successors source).filter fun target =>
        g.pending (done ++ [source]) target = 0) := by
  have hwaits : ∀ target ∈ g.successors source, g.pending done target ≠ 0 :=
    fun _ htarget => pending_ne_zero_of_mem_successors hsource htarget
  constructor
  · refine List.Nodup.append h.nodup ((nodup_eraseDups _).filter _) ?_
    intro target hfreed hnew
    exact hwaits target (List.mem_of_mem_filter hnew) ((h.mem_iff target).mp hfreed).2.2
  · intro id
    rw [List.mem_append, List.mem_filter, h.mem_iff, decide_eq_true_eq]
    constructor
    · rintro (⟨hid, hbefore, hdone⟩ | ⟨htarget, hfree⟩)
      · exact ⟨hid, hbefore,
          pending_eq_zero_mono (fun _ hother => List.mem_append_left _ hother) hdone⟩
      · exact ⟨target_mem_of_mem_successors hg htarget,
          fun hbefore => hwaits id htarget (pending_eq_zero_mono hfirst hbefore), hfree⟩
    · rintro ⟨hid, hbefore, hfree⟩
      by_cases hdone : g.pending done id = 0
      · exact Or.inl ⟨hid, hbefore, hdone⟩
      · refine Or.inr ⟨mem_successors.mpr ?_, hfree⟩
        rw [pending_append hsource, hfree] at hdone
        omega

/-- A generation takes all its arcs away, and the next one consists of the nodes it frees. -/
theorem foldl_release
    {first done freed sources : List String}
    (hg : g.IsClosed)
    (hnodup : (done ++ sources).Nodup)
    (hfirst : ∀ id ∈ first, id ∈ done)
    (h : g.AreFreed first done freed) :
    ∃ next,
      sources.foldl g.release (tally (g.pending done) g.nodeIds, freed) =
        (tally (g.pending (done ++ sources)) g.nodeIds, next) ∧
      g.AreFreed first (done ++ sources) next := by
  induction sources generalizing done freed with
  | nil =>
      rw [List.append_nil]
      exact ⟨freed, rfl, h⟩
  | cons source sources ih =>
      have hsource : source ∉ done := fun hmem =>
        (List.nodup_append.mp hnodup).2.2 _ hmem _ List.mem_cons_self rfl
      have hsplit : done ++ source :: sources = done ++ [source] ++ sources := by
        rw [List.append_assoc, List.singleton_append]
      rw [List.foldl_cons, release_tally hg hsource, hsplit]
      rw [hsplit] at hnodup
      exact ih hnodup (fun id hid => List.mem_append_left _ (hfirst id hid))
        (h.append hg hsource hfirst)

end Release

/-- Every node of an order comes after the sources of all arcs into it. -/
def SourcesFirst (g : Graph) (order : List String) : Prop :=
  ∀ before id after, order = before ++ id :: after →
    ∀ a ∈ g.arcs, a.target = id → a.source ∈ before

/-- The nodes that are sorted, and those that wait for no others. -/
structure Frontier (g : Graph) (done free : List String) : Prop where
  nodup : (done ++ free).Nodup
  mem_iff : ∀ id, id ∈ done ++ free ↔ id ∈ g.nodeIds ∧ g.pending done id = 0
  sorted : g.SourcesFirst done

section Frontier

variable {g : Graph} {done free : List String}

/-- Nodes that wait for no others can follow. -/
theorem SourcesFirst.append
    (h : g.SourcesFirst done)
    (hfree : ∀ id ∈ free, g.pending done id = 0) :
    g.SourcesFirst (done ++ free) := by
  intro before id after hsplit a ha htarget
  rcases List.append_eq_append_iff.mp hsplit with ⟨front, rfl, hfront⟩ | ⟨back, hdone, hback⟩
  · have hid : id ∈ free := by
      rw [hfront]
      exact List.mem_append_right _ List.mem_cons_self
    exact List.mem_append_left _ (pending_eq_zero_iff.mp (hfree id hid) a ha htarget)
  · cases back with
    | nil =>
        rw [List.append_nil] at hdone
        rw [List.nil_append] at hback
        have hid : id ∈ free := by
          rw [← hback]
          exact List.mem_cons_self
        rw [← hdone]
        exact pending_eq_zero_iff.mp (hfree id hid) a ha htarget
    | cons other back =>
        rw [List.cons_append, List.cons.injEq] at hback
        obtain ⟨rfl, _⟩ := hback
        exact h before id back hdone a ha htarget

/-- At the start the roots wait for no others. -/
theorem frontier_roots
    (hg : g.IsClosed) :
    g.Frontier [] g.roots := by
  refine ⟨hg.nodup.filter _, ?_, ?_⟩
  · intro id
    unfold roots entering
    rw [List.nil_append, List.mem_filter, List.isEmpty_iff, List.filter_eq_nil_iff,
      pending_eq_zero_iff]
    simp
  · intro before id after hsplit
    simp at hsplit

/-- After a generation the nodes that it has freed wait for no others. -/
theorem Frontier.next
    {freed : List String}
    (h : g.Frontier done free)
    (hfreed : g.AreFreed done (done ++ free) freed) :
    g.Frontier (done ++ free) freed := by
  have hfree : ∀ id ∈ done ++ free, g.pending done id = 0 :=
    fun id hid => ((h.mem_iff id).mp hid).2
  refine ⟨?_, ?_, ?_⟩
  · refine List.Nodup.append h.nodup hfreed.nodup ?_
    intro id hid hnew
    exact ((hfreed.mem_iff id).mp hnew).2.1 (hfree id hid)
  · intro id
    rw [List.mem_append, h.mem_iff, hfreed.mem_iff]
    constructor
    · rintro (⟨hid, hbefore⟩ | ⟨hid, _, hafter⟩)
      · exact ⟨hid, pending_eq_zero_mono (fun _ hother => List.mem_append_left _ hother) hbefore⟩
      · exact ⟨hid, hafter⟩
    · rintro ⟨hid, hafter⟩
      by_cases hbefore : g.pending done id = 0
      · exact Or.inl ⟨hid, hbefore⟩
      · exact Or.inr ⟨hid, hbefore, hafter⟩
  · exact h.sorted.append fun id hid => hfree id (List.mem_append_right _ hid)

/-- No more nodes are sorted than there are. -/
theorem Frontier.length_le
    (h : g.Frontier done free) :
    (done ++ free).length ≤ g.nodeIds.length :=
  (h.nodup.subperm fun id hid => ((h.mem_iff id).mp hid).1).length_le

/--
The generations sort every node that can be sorted.  At most one generation for each
node that is not sorted yet, and an empty one, are needed.
-/
theorem generations_spec
    {fuel : Nat}
    (hg : g.IsClosed)
    (h : g.Frontier done free)
    (hfuel : g.nodeIds.length < done.length + fuel) :
    ∃ order,
      g.generations fuel (tally (g.pending done) g.nodeIds) free =
        (order, tally (g.pending (done ++ order)) g.nodeIds) ∧
      g.Frontier (done ++ order) [] := by
  induction fuel generalizing done free with
  | zero =>
      have hlength := h.length_le
      rw [List.length_append] at hlength
      omega
  | succ fuel ih =>
      cases free with
      | nil =>
          refine ⟨[], ?_, ?_⟩
          · rw [List.append_nil]
            rfl
          · rw [List.append_nil]
            exact h
      | cons id free =>
          obtain ⟨next, hfold, hfreed⟩ :=
            foldl_release hg h.nodup (fun _ hother => hother) (areFreed_nil g done)
          have hlater : g.nodeIds.length < (done ++ id :: free).length + fuel := by
            rw [List.length_append, List.length_cons]
            omega
          obtain ⟨later, hgenerations, hend⟩ := ih (h.next hfreed) hlater
          refine ⟨id :: free ++ later, ?_, ?_⟩
          · unfold generations
            rw [hfold]
            dsimp only
            rw [hgenerations, List.append_assoc]
          · rw [← List.append_assoc]
            exact hend

/-- What is sorted, and what is left. -/
theorem sorted_spec
    (hg : g.IsClosed) :
    ∃ order,
      g.sorted = (order, tally (g.pending order) g.nodeIds) ∧ g.Frontier order [] := by
  have hstart :
      (g.nodeIds.filterMap fun id =>
          let n := (g.entering id).length
          if n = 0 then none else some (id, n)) =
        tally (g.pending []) g.nodeIds := by
    unfold tally
    apply List.filterMap_congr
    intro id _
    have hcount : (g.entering id).length = g.pending [] id := by
      unfold entering pending
      rw [← List.countP_eq_length_filter]
      apply List.countP_congr
      intro a _
      simp
    rw [hcount]
  have hfuel : g.nodeIds.length < ([] : List String).length + (g.nodes.length + 1) := by
    unfold nodeIds
    rw [List.length_map, List.length_nil]
    omega
  unfold sorted
  rw [hstart]
  exact generations_spec hg (frontier_roots hg) hfuel

end Frontier

/-- Some arc leads from one node to another. -/
def Leads (g : Graph) (source target : String) : Prop :=
  ∃ a ∈ g.arcs, a.source = source ∧ a.target = target

section Cycles

variable {g : Graph} {order : List String}

/-- In an order of all nodes, arcs lead forward. -/
theorem idxOf_lt_idxOf
    (h : g.SourcesFirst order)
    (hall : ∀ id ∈ g.nodeIds, id ∈ order)
    (hg : g.IsClosed)
    {source target : String}
    (hleads : g.Leads source target) :
    order.idxOf source < order.idxOf target := by
  obtain ⟨a, ha, rfl, rfl⟩ := hleads
  obtain ⟨before, after, hsplit, hnot⟩ :=
    List.eq_append_cons_of_mem (hall _ (hg.target_mem a ha))
  have hbefore := h before a.target after hsplit a ha rfl
  rw [hsplit, List.idxOf_append_of_mem hbefore, List.idxOf_append_of_notMem hnot]
  exact Nat.lt_of_lt_of_le (List.idxOf_lt_length_iff.mpr hbefore) (Nat.le_add_right _ _)

/-- Nodes that can all be sorted lie on no cycle. -/
theorem acyclic_of_sourcesFirst
    (h : g.SourcesFirst order)
    (hall : ∀ id ∈ g.nodeIds, id ∈ order)
    (hg : g.IsClosed)
    (id : String) :
    ¬Relation.TransGen g.Leads id id := by
  have hforward :
      ∀ {source target : String},
        Relation.TransGen g.Leads source target → order.idxOf source < order.idxOf target := by
    intro source target hpath
    induction hpath with
    | single hleads =>
        exact idxOf_lt_idxOf h hall hg hleads
    | tail _ hleads ih =>
        exact Nat.lt_trans ih (idxOf_lt_idxOf h hall hg hleads)
  exact fun hcycle => Nat.lt_irrefl _ (hforward hcycle)

/--
Among finitely many nodes that each have a predecessor among them there is a cycle, for
going back from a node to a predecessor would have to end otherwise.
-/
theorem exists_cycle
    {ids : List String} {id : String}
    (hid : id ∈ ids)
    (h : ∀ target ∈ ids, ∃ source ∈ ids, g.Leads source target) :
    ∃ id, Relation.TransGen g.Leads id id := by
  by_contra hacyclic
  have hirrefl : Std.Irrefl (Relation.TransGen g.Leads) :=
    ⟨fun id hcycle => hacyclic ⟨id, hcycle⟩⟩
  have hstrict : IsStrictOrder String (Relation.TransGen g.Leads) := {}
  have hfounded : ({id | id ∈ ids} : Set String).WellFoundedOn (Relation.TransGen g.Leads) :=
    (List.finite_toSet ids).wellFoundedOn
  refine hfounded.induction (P := fun _ => False) hid ?_
  intro target htarget hback
  obtain ⟨source, hsource, hleads⟩ := h target htarget
  exact hback source hsource (Relation.TransGen.single hleads)

/-- Nodes are left exactly if there is a cycle; otherwise all nodes are sorted. -/
theorem hasCycle_iff
    (hg : g.IsClosed) :
    g.hasCycle = true ↔ ∃ id, Relation.TransGen g.Leads id id := by
  obtain ⟨order, hsorted, hend⟩ := sorted_spec hg
  have hmem := hend.mem_iff
  rw [List.append_nil] at hmem
  unfold hasCycle
  rw [hsorted, Bool.not_eq_true', ← Bool.not_eq_true, List.isEmpty_iff, tally_eq_nil_iff]
  constructor
  · intro hleft
    simp only [not_forall] at hleft
    obtain ⟨id, hid, hwaits⟩ := hleft
    refine @exists_cycle g (g.nodeIds.filter fun id => decide (id ∉ order)) id ?_ ?_
    · refine List.mem_filter.mpr ⟨hid, decide_eq_true ?_⟩
      exact fun hsorted => hwaits ((hmem id).mp hsorted).2
    · intro target htarget
      obtain ⟨htarget, hnot⟩ := List.mem_filter.mp htarget
      have hwaits : g.pending order target ≠ 0 :=
        fun hfree => of_decide_eq_true hnot ((hmem target).mpr ⟨htarget, hfree⟩)
      rw [ne_eq, pending_eq_zero_iff] at hwaits
      simp only [not_forall] at hwaits
      obtain ⟨a, ha, hat, hsource⟩ := hwaits
      exact ⟨a.source, List.mem_filter.mpr ⟨hg.source_mem a ha, decide_eq_true hsource⟩, a, ha,
        rfl, hat⟩
  · rintro ⟨id, hcycle⟩ hnone
    exact acyclic_of_sourcesFirst hend.sorted
      (fun other hother => (hmem other).mpr ⟨hother, hnone other hother⟩) hg id hcycle

/-- Without a cycle all nodes are sorted, sources before targets. -/
theorem topologicalOrder_of_no_cycle
    (hg : g.IsClosed)
    (h : g.hasCycle = false) :
    g.topologicalOrder.Perm g.nodeIds ∧
      ∀ source target, g.Leads source target →
        g.topologicalOrder.idxOf source < g.topologicalOrder.idxOf target := by
  obtain ⟨order, hsorted, hend⟩ := sorted_spec hg
  have hmem := hend.mem_iff
  have hnodup := hend.nodup
  rw [List.append_nil] at hmem hnodup
  have horder : g.topologicalOrder = order := by
    unfold topologicalOrder
    rw [h, hsorted]
    rfl
  unfold hasCycle at h
  rw [hsorted, Bool.not_eq_false', List.isEmpty_iff, tally_eq_nil_iff] at h
  have hall : ∀ id ∈ g.nodeIds, id ∈ order := fun id hid => (hmem id).mpr ⟨hid, h id hid⟩
  rw [horder]
  constructor
  · rw [List.perm_ext_iff_of_nodup hnodup hg.nodup]
    exact fun id => ⟨fun hid => ((hmem id).mp hid).1, hall id⟩
  · exact fun source target hleads => idxOf_lt_idxOf hend.sorted hall hg hleads

/-- In any case the order has every node once. -/
theorem topologicalOrder_perm
    (hg : g.IsClosed) :
    g.topologicalOrder.Perm g.nodeIds := by
  cases hcycle : g.hasCycle with
  | false =>
      exact (topologicalOrder_of_no_cycle hg hcycle).1
  | true =>
      unfold topologicalOrder
      rw [hcycle, if_pos rfl]

end Cycles

end Graph

section TextGraph

/-- Some edge of a model leads from one node to another. -/
def Model.Leads (m : Model) (source target : String) : Prop :=
  ∃ e ∈ m.edges, e.source = source ∧ e.target = target

theorem leads_ofModel
    (m : Model) :
    (Graph.ofModel m).Leads = m.Leads := by
  funext source target
  exact propext (Graph.exists_arc_ofModel_iff fun s t _ => s = source ∧ t = target)

/--
The graph of a text that is read shows the model: its nodes in order, with an arc for
each edge, where the listing by source and target has every arc once.  Roots and leaves
are the nodes where no edge ends or starts.  There is a cycle exactly if edges of the
model form one.  The order has every node once, sources before targets if there is no
cycle, and is that of the model if there is one.
-/
theorem graph_view_of_text
    {text : String} {d : Diagram}
    (hd : Diagram.ofText text = .ok d) :
    let g := Graph.ofModel d.model
    g.nodes = d.model.nodes.map (fun n => (n.id, some n)) ∧
      g.nodeIds = d.model.nodeIds ∧
      g.arcs =
        d.model.edges.mapIdx
          (fun position e => ⟨e.source, e.target, e.id, e.label, position⟩) ∧
      g.sortedArcs.Perm g.arcs ∧
      g.roots = d.model.nodeIds.filter (fun id => d.model.edges.all (·.target != id)) ∧
      g.leaves = d.model.nodeIds.filter (fun id => d.model.edges.all (·.source != id)) ∧
      (g.hasCycle = true ↔ ∃ id, Relation.TransGen d.model.Leads id id) ∧
      g.topologicalOrder.Perm d.model.nodeIds ∧
      g.topologicalOrder.Nodup ∧
      (g.hasCycle = false →
        ∀ e ∈ d.model.edges,
          g.topologicalOrder.idxOf e.source < g.topologicalOrder.idxOf e.target) ∧
      (g.hasCycle = true → g.topologicalOrder = d.model.nodeIds) := by
  intro g
  have hreading := isReading_of_ofText hd
  have hclosed : g.IsClosed := Graph.isClosed_ofModel hreading.reads
  have hids : g.nodeIds = d.model.nodeIds := Graph.nodeIds_ofModel hreading.reads
  have hleads : g.Leads = d.model.Leads := leads_ofModel d.model
  have hperm := Graph.topologicalOrder_perm hclosed
  refine ⟨Graph.nodes_ofModel hreading.reads, hids, Graph.arcs_eq hreading.areNumbered,
    Graph.sortedArcs_perm hclosed, Graph.roots_ofModel hreading.reads,
    Graph.leaves_ofModel hreading.reads, ?_, ?_, ?_, ?_, ?_⟩
  · rw [← hleads]
    exact Graph.hasCycle_iff hclosed
  · rw [← hids]
    exact hperm
  · exact hperm.nodup_iff.mpr hclosed.nodup
  · intro hnone e he
    refine (Graph.topologicalOrder_of_no_cycle hclosed hnone).2 _ _ ?_
    rw [hleads]
    exact ⟨e, he, rfl, rfl⟩
  · intro hcycle
    unfold Graph.topologicalOrder
    rw [hcycle, if_pos rfl, hids]

/--
Edges of one id between different ends and edges between the same ends all have their
arcs.  The node that is declared first comes after the one from which an edge leads to it.
-/
theorem graph_view_of_clashing_ids :
    ∃ d,
      Diagram.ofText "C[x]\nA --> B_C\nA_B --> C\nA --> B_C" = .ok d ∧
      d.model.edges.map (·.id) = ["edge_A_B_C", "edge_A_B_C", "edge_A_B_C_1"] ∧
      (Graph.ofModel d.model).sortedArcs.length = 3 ∧
      d.model.nodeIds = ["C", "A", "B_C", "A_B"] ∧
      (Graph.ofModel d.model).topologicalOrder = ["A", "A_B", "B_C", "C"] ∧
      ∀ e ∈ d.model.edges,
        (Graph.ofModel d.model).topologicalOrder.idxOf e.source <
          (Graph.ofModel d.model).topologicalOrder.idxOf e.target := by
  have hd :
      Diagram.ofText "C[x]\nA --> B_C\nA_B --> C\nA --> B_C" =
        .ok {
          lines := ["C[x]", "A --> B_C", "A_B --> C", "A --> B_C"]
          model := {
            nodes := [
              { id := "C", label := "x" }, placeholder "A", placeholder "B_C",
              placeholder "A_B"]
            edges := [
              { id := "edge_A_B_C", source := "A", target := "B_C" },
              { id := "edge_A_B_C", source := "A_B", target := "C" },
              { id := "edge_A_B_C_1", source := "A", target := "B_C" }] } } := by
    rfl
  obtain ⟨_, _, harcs, hlisted, _, _, _, _, _, hforward, _⟩ := graph_view_of_text hd
  refine ⟨_, hd, rfl, ?_, rfl, by decide +kernel, hforward (by decide +kernel)⟩
  rw [hlisted.length_eq, harcs, List.length_mapIdx]
  rfl

end TextGraph

end Flowchart
