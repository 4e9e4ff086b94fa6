import Flowchart.Diagram
import Mathlib.Data.List.Basic

/-!
# Placeholders

The nodes of a model are the declared ones followed by a placeholder for every
other end of an edge, in the order in which the ends are first mentioned.  Which
ends these are depends only on the ids that are declared and on the ends that the
edges mention, so every change of nodes and edges is followed through `newEnds`.

`completeNodes_eq`: the nodes of a model, split into the two parts.
-/

namespace Flowchart

section MentionedEnds

/-- The ids that are not known, each once, in the order of first mention. -/
def newEnds (known : List String) : List String → List String
  | [] => []
  | id :: ids =>
      if id ∈ known then newEnds known ids
      else id :: newEnds (known ++ [id]) ids

@[simp] theorem newEnds_nil
    (known : List String) :
    newEnds known [] = [] := by
  rfl

theorem newEnds_cons_of_mem
    {known : List String} {id : String}
    (h : id ∈ known)
    (ids : List String) :
    newEnds known (id :: ids) = newEnds known ids := by
  simp [newEnds, h]

theorem newEnds_cons_of_not_mem
    {known : List String} {id : String}
    (h : id ∉ known)
    (ids : List String) :
    newEnds known (id :: ids) = id :: newEnds (known ++ [id]) ids := by
  simp [newEnds, h]

/-- The new ends are the mentioned ids that are not known. -/
theorem mem_newEnds
    {known ids : List String} {id : String} :
    id ∈ newEnds known ids ↔ id ∈ ids ∧ id ∉ known := by
  induction ids generalizing known with
  | nil =>
      simp
  | cons first ids ih =>
      by_cases hfirst : first ∈ known
      · rw [newEnds_cons_of_mem hfirst, ih, List.mem_cons]
        constructor
        · rintro ⟨hmem, hnot⟩
          exact ⟨Or.inr hmem, hnot⟩
        · rintro ⟨rfl | hmem, hnot⟩
          · exact absurd hfirst hnot
          · exact ⟨hmem, hnot⟩
      · rw [newEnds_cons_of_not_mem hfirst, List.mem_cons, ih, List.mem_cons]
        simp only [List.mem_append, List.mem_singleton, not_or]
        constructor
        · rintro (rfl | ⟨hmem, hnot, _⟩)
          · exact ⟨Or.inl rfl, hfirst⟩
          · exact ⟨Or.inr hmem, hnot⟩
        · rintro ⟨hmem, hnot⟩
          by_cases heq : id = first
          · exact Or.inl heq
          · exact Or.inr ⟨hmem.resolve_left heq, hnot, heq⟩

/-- Only what is known of the mentioned ids matters. -/
theorem newEnds_congr
    {known known' ids : List String}
    (h : ∀ id ∈ ids, id ∈ known ↔ id ∈ known') :
    newEnds known ids = newEnds known' ids := by
  induction ids generalizing known known' with
  | nil =>
      rfl
  | cons first ids ih =>
      have hrest : ∀ id ∈ ids, id ∈ known ↔ id ∈ known' :=
        fun id hid => h id (List.mem_cons_of_mem _ hid)
      by_cases hfirst : first ∈ known
      · rw [newEnds_cons_of_mem hfirst,
          newEnds_cons_of_mem ((h first List.mem_cons_self).mp hfirst)]
        exact ih hrest
      · rw [newEnds_cons_of_not_mem hfirst,
          newEnds_cons_of_not_mem fun hmem => hfirst ((h first List.mem_cons_self).mpr hmem)]
        congr 1
        apply ih
        intro id hid
        rw [List.mem_append, List.mem_append, hrest id hid]

/-- The ends mentioned later are new if neither known nor mentioned before. -/
theorem newEnds_append
    (known ids ids' : List String) :
    newEnds known (ids ++ ids') =
      newEnds known ids ++ newEnds (known ++ newEnds known ids) ids' := by
  induction ids generalizing known with
  | nil =>
      simp
  | cons first ids ih =>
      rw [List.cons_append]
      by_cases hfirst : first ∈ known
      · rw [newEnds_cons_of_mem hfirst, newEnds_cons_of_mem hfirst, ih]
      · rw [newEnds_cons_of_not_mem hfirst, newEnds_cons_of_not_mem hfirst, ih]
        simp only [List.cons_append, List.append_assoc, List.nil_append]

/-- A further known id is left out of the new ends. -/
theorem newEnds_append_singleton
    (known ids : List String) (extra : String) :
    newEnds (known ++ [extra]) ids = (newEnds known ids).filter (· != extra) := by
  induction ids generalizing known with
  | nil =>
      rfl
  | cons first ids ih =>
      by_cases hfirst : first ∈ known
      · rw [newEnds_cons_of_mem hfirst,
          newEnds_cons_of_mem (List.mem_append_left _ hfirst)]
        exact ih known
      · rw [newEnds_cons_of_not_mem hfirst]
        by_cases heq : first = extra
        · subst heq
          rw [newEnds_cons_of_mem (by simp), ih]
          simp
        · rw [newEnds_cons_of_not_mem (by simp [hfirst, heq])]
          have hcomm :
              newEnds (known ++ [extra] ++ [first]) ids =
                newEnds (known ++ [first] ++ [extra]) ids := by
            apply newEnds_congr
            intro id _
            simp only [List.mem_append, List.mem_singleton]
            tauto
          rw [hcomm, ih]
          simp [heq]

theorem nodup_newEnds
    (known ids : List String) :
    (newEnds known ids).Nodup := by
  induction ids generalizing known with
  | nil =>
      exact List.nodup_nil
  | cons first ids ih =>
      by_cases hfirst : first ∈ known
      · rw [newEnds_cons_of_mem hfirst]
        exact ih known
      · rw [newEnds_cons_of_not_mem hfirst, List.nodup_cons]
        refine ⟨?_, ih _⟩
        intro hmem
        exact (mem_newEnds.mp hmem).2 (by simp)

end MentionedEnds

section ModelNodes

/-- The two ends of an edge. -/
def Edge.ends (e : Edge) : String × String := (e.source, e.target)

/-- The placeholder of an id: the last former one, or a new one. -/
def former (previous : List Node) (id : String) : Node :=
  (previous.reverse.find? fun n => !n.declared && n.id == id).getD (placeholder id)

theorem former_spec
    (previous : List Node) (id : String) :
    (former previous id).id = id ∧ (former previous id).declared = false ∧
      (former previous id ∈ previous ∨ former previous id = placeholder id) := by
  unfold former
  cases h : previous.reverse.find? fun n => !n.declared && n.id == id with
  | none =>
      exact ⟨rfl, rfl, Or.inr rfl⟩
  | some n =>
      have hn := List.find?_some h
      simp only [Bool.and_eq_true, Bool.not_eq_true', beq_iff_eq] at hn
      exact ⟨hn.2, hn.1, Or.inl (List.mem_reverse.mp (List.mem_of_find?_eq_some h))⟩

@[simp] theorem former_id
    (previous : List Node) (id : String) :
    (former previous id).id = id :=
  (former_spec previous id).1

@[simp] theorem former_declared
    (previous : List Node) (id : String) :
    (former previous id).declared = false :=
  (former_spec previous id).2.1

theorem foldl_addEndpoint
    (previous nodes : List Node) (ids : List String) :
    ids.foldl (addEndpoint previous) nodes =
      nodes ++ (newEnds (nodes.map (·.id)) ids).map (former previous) := by
  induction ids generalizing nodes with
  | nil =>
      simp
  | cons id ids ih =>
      have hany : nodes.any (·.id == id) = true ↔ id ∈ nodes.map (·.id) := by
        simp only [List.any_eq_true, beq_iff_eq, List.mem_map]
      rw [List.foldl_cons, ih]
      by_cases hid : id ∈ nodes.map (·.id)
      · rw [newEnds_cons_of_mem hid]
        simp only [addEndpoint, hany.mpr hid, if_true]
      · have hfalse : nodes.any (·.id == id) = false := by
          rw [Bool.eq_false_iff]
          exact fun h => hid (hany.mp h)
        have hadd : addEndpoint previous nodes id = nodes ++ [former previous id] := by
          simp [addEndpoint, hfalse, former]
        rw [newEnds_cons_of_not_mem hid, hadd]
        simp only [List.map_append, List.map_cons, List.map_nil, former_id,
          List.append_assoc, List.singleton_append]

/-- The nodes of a model: the declared ones, then a placeholder for every other end. -/
theorem completeNodes_eq
    (declared : List Node) (edges : List Edge) (previous : List Node) :
    completeNodes declared edges previous =
      declared ++ (newEnds (declared.map (·.id)) (endpoints edges)).map (former previous) :=
  foldl_addEndpoint previous declared (endpoints edges)

@[simp] theorem endpoints_append
    (edges edges' : List Edge) :
    endpoints (edges ++ edges') = endpoints edges ++ endpoints edges' :=
  List.flatMap_append

theorem mem_endpoints
    {edges : List Edge} {id : String} :
    id ∈ endpoints edges ↔ ∃ e ∈ edges, e.source = id ∨ e.target = id := by
  simp [endpoints, eq_comm]

/-- Edges with the same ends mention the same ids. -/
theorem endpoints_congr
    {edges edges' : List Edge}
    (h : edges.map Edge.ends = edges'.map Edge.ends) :
    endpoints edges = endpoints edges' := by
  have hends :
      ∀ es : List Edge, endpoints es = (es.map Edge.ends).flatMap fun p => [p.1, p.2] := by
    intro es
    rw [List.flatMap_map]
    rfl
  rw [hends, hends, h]

end ModelNodes

end Flowchart
