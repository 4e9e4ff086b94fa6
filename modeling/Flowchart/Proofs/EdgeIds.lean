import Flowchart.Proofs.EditSteps
import Flowchart.Proofs.FreshIds

/-!
# What ids say of edges

The id of an edge joins the ids of its ends with underscores and numbers every
further edge between the same ends.  The numbers tell the edges between the same
ends apart.  Ids of nodes may hold underscores themselves, though, and then two
edges between other ends may come to the same id; where no id of a node holds one,
an id can be taken apart again and tells the ends as well as the number.

* `eq_of_same_id_of_same_ends`: edges between the same ends have different ids.
* `idFor_eq_iff`: without underscores in ids of nodes an id tells ends and number.
* `edge_ids_distinct_iff`: ids of edges are distinct exactly if they tell the ends.
-/

namespace Flowchart

section IdParts

/-- What the id of an edge has behind the ids of its ends. -/
def Edge.numbering (earlier : Nat) : List Char :=
  if earlier = 0 then [] else '_' :: Nat.toDigits 10 earlier

theorem toList_idFor
    (source target : String) (earlier : Nat) :
    (Edge.idFor source target earlier).toList =
      "edge_".toList ++
        (source.toList ++ '_' :: (target.toList ++ Edge.numbering earlier)) := by
  unfold Edge.idFor Edge.numbering
  dsimp only
  split
  · simp [String.toList_append]
  · simp [String.toList_append, Nat.toString_eq_repr]

theorem numbering_injective :
    Function.Injective Edge.numbering := by
  intro m n h
  unfold Edge.numbering at h
  split at h <;> split at h
  · omega
  · cases h
  · cases h
  · have hnumbers := congrArg Text.number (List.cons.inj h).2
    rwa [Text.number_toDigits, Text.number_toDigits] at hnumbers

/-- Edges between the same ends with different numbers have different ids. -/
theorem idFor_injective
    (source target : String) :
    Function.Injective (Edge.idFor source target) := by
  intro m n h
  have htexts := congrArg String.toList h
  rw [toList_idFor, toList_idFor] at htexts
  have hrest := List.append_cancel_left (List.append_cancel_left htexts)
  exact numbering_injective (List.append_cancel_left (List.cons.inj hrest).2)

/-- Ids of edges tell ends and number where the ids of nodes hold no underscore. -/
theorem idFor_eq_iff
    {source target source' target' : String} {m n : Nat}
    (hsource : '_' ∉ source.toList)
    (htarget : '_' ∉ target.toList)
    (hsource' : '_' ∉ source'.toList)
    (htarget' : '_' ∉ target'.toList) :
    Edge.idFor source target m = Edge.idFor source' target' n ↔
      source = source' ∧ target = target' ∧ m = n := by
  have hrun : ∀ cs : List Char, '_' ∉ cs → ∀ c ∈ cs, (c != '_') = true := by
    intro cs hcs c hc
    rw [bne_iff_ne]
    rintro rfl
    exact hcs hc
  have hstop : ∀ (rest : List Char), ∀ c ∈ ('_' :: rest).head?, (c != '_') = false :=
    fun rest => Text.head?_cons_stops (by decide) rest
  have hnumbering : ∀ k : Nat, ∀ c ∈ (Edge.numbering k).head?, (c != '_') = false := by
    intro k
    unfold Edge.numbering
    split
    · exact fun c hc => absurd hc (by simp)
    · exact hstop _
  constructor
  · intro h
    have htexts := congrArg String.toList h
    rw [toList_idFor, toList_idFor] at htexts
    obtain ⟨hsources, hrest⟩ :=
      Text.eq_of_append_eq_append (hrun _ hsource) (hrun _ hsource') (hstop _) (hstop _)
        (List.append_cancel_left htexts)
    obtain ⟨htargets, hnumbers⟩ :=
      Text.eq_of_append_eq_append (hrun _ htarget) (hrun _ htarget') (hnumbering m) (hnumbering n)
        (List.cons.inj hrest).2
    exact ⟨String.toList_inj.mp hsources, String.toList_inj.mp htargets,
      numbering_injective hnumbers⟩
  · rintro ⟨rfl, rfl, rfl⟩
    rfl

end IdParts

/-- Before a later place there are more members of a kind, if one of them is at the first. -/
theorem countP_take_lt
    {α : Type} {p : α → Bool} {xs : List α} {i j : Nat} {x : α}
    (hx : xs[i]? = some x)
    (hp : p x = true)
    (hij : i < j) :
    (xs.take i).countP p < (xs.take j).countP p := by
  have hsucc : (xs.take (i + 1)).countP p = (xs.take i).countP p + 1 := by
    rw [List.take_add_one, hx, List.countP_append]
    simp [hp]
  have hle : (xs.take (i + 1)).countP p ≤ (xs.take j).countP p :=
    (List.take_sublist_take_left hij).countP_le
  omega

/-- Edges with the numbers that they would be given. -/
def AreNumbered (edges : List Edge) : Prop := renumberEdges edges = edges

theorem areNumbered_modelEdges
    (lines : List Line) :
    AreNumbered (Reading.modelEdges lines) := by
  unfold AreNumbered
  rw [Reading.modelEdges_eq]
  exact renumberEdges_congr (map_unnumbered_renumberFrom [] _)

theorem Diagram.IsReading.areNumbered
    {d : Diagram}
    (h : d.IsReading) :
    AreNumbered d.model.edges := by
  rw [h.reads.edges]
  exact areNumbered_modelEdges _

/-- Edges of one id have the same ends. -/
def TellEnds (edges : List Edge) : Prop :=
  ∀ edge ∈ edges, ∀ other ∈ edges, edge.id = other.id → edge.ends = other.ends

section Numbered

variable {edges : List Edge} (h : AreNumbered edges)

include h

theorem AreNumbered.id_eq
    {rank : Nat} {edge : Edge}
    (hedge : edges[rank]? = some edge) :
    edge.id = Edge.nextId (edges.take rank) edge.source edge.target := by
  have hrank := getElem?_renumberFrom [] edges rank
  unfold AreNumbered renumberEdges at h
  rw [h, hedge, Option.map_some, List.nil_append] at hrank
  exact congrArg Edge.id (Option.some.inj hrank)

theorem AreNumbered.id_ne
    {i j : Nat} {edge other : Edge}
    (hedge : edges[i]? = some edge)
    (hother : edges[j]? = some other)
    (hends : edge.ends = other.ends)
    (hij : i < j) :
    edge.id ≠ other.id := by
  obtain ⟨hsource, htarget⟩ := Prod.mk.inj hends
  have hjoins : edge.joins other.source other.target = true := by
    simp [Edge.joins, hsource, htarget]
  have hlt := countP_take_lt (p := (·.joins other.source other.target)) hedge hjoins hij
  rw [h.id_eq hedge, h.id_eq hother, hsource, htarget]
  intro hid
  exact Nat.ne_of_lt hlt (idFor_injective _ _ hid)

/-- Between the same ends an id belongs to one edge only. -/
theorem eq_of_same_id_of_same_ends
    {i j : Nat} {edge other : Edge}
    (hedge : edges[i]? = some edge)
    (hother : edges[j]? = some other)
    (hends : edge.ends = other.ends)
    (hid : edge.id = other.id) :
    i = j := by
  rcases Nat.lt_trichotomy i j with hlt | heq | hgt
  · exact absurd hid (h.id_ne hedge hother hends hlt)
  · exact heq
  · exact absurd hid.symm (h.id_ne hother hedge hends.symm hgt)

/-- Ids are distinct exactly if they tell the ends. -/
theorem AreNumbered.nodup_ids_iff :
    (edges.map (·.id)).Nodup ↔ TellEnds edges := by
  constructor
  · intro hnodup edge hedge other hother hid
    rw [List.inj_on_of_nodup_map hnodup hedge hother hid]
  · intro htell
    rw [List.nodup_iff_getElem?_ne_getElem?]
    intro i j hij hj heq
    rw [List.length_map] at hj
    have hother := List.getElem?_eq_getElem hj
    have hedge := List.getElem?_eq_getElem (Nat.lt_trans hij hj)
    rw [List.getElem?_map, List.getElem?_map, hedge, hother] at heq
    have hid := Option.some.inj heq
    have hends := htell _ (List.mem_of_getElem? hedge) _ (List.mem_of_getElem? hother) hid
    exact Nat.ne_of_lt hij (eq_of_same_id_of_same_ends h hedge hother hends hid)

/-- The id of a further edge is taken exactly if an edge between other ends has it. -/
theorem AreNumbered.nextId_mem_iff
    (source target : String) :
    Edge.nextId edges source target ∈ edges.map (·.id) ↔
      ∃ edge ∈ edges,
        edge.id = Edge.nextId edges source target ∧ edge.ends ≠ (source, target) := by
  constructor
  · intro hmem
    obtain ⟨edge, hedge, hid⟩ := List.mem_map.mp hmem
    refine ⟨edge, hedge, hid, ?_⟩
    intro hends
    obtain ⟨rfl, rfl⟩ := Prod.mk.inj hends
    obtain ⟨rank, hrank⟩ := List.mem_iff_getElem?.mp hedge
    have hjoins : edge.joins edge.source edge.target = true := by
      simp [Edge.joins]
    have hlt :=
      countP_take_lt (p := (·.joins edge.source edge.target)) hrank hjoins
        (List.getElem?_eq_some_iff.mp hrank).1
    rw [List.take_length] at hlt
    rw [h.id_eq hrank] at hid
    exact Nat.ne_of_lt hlt (idFor_injective _ _ hid)
  · rintro ⟨edge, hedge, hid, _⟩
    exact List.mem_map.mpr ⟨edge, hedge, hid⟩

/-- Without underscores in the ids of nodes the ids of edges tell their ends. -/
theorem AreNumbered.tellEnds_of_no_underscore
    (hends : ∀ id ∈ endpoints edges, '_' ∉ id.toList) :
    TellEnds edges := by
  intro edge hedge other hother hid
  obtain ⟨i, hi⟩ := List.mem_iff_getElem?.mp hedge
  obtain ⟨j, hj⟩ := List.mem_iff_getElem?.mp hother
  rw [h.id_eq hi, h.id_eq hj] at hid
  obtain ⟨hsource, htarget, _⟩ :=
    (idFor_eq_iff
      (hends _ (mem_endpoints.mpr ⟨edge, hedge, Or.inl rfl⟩))
      (hends _ (mem_endpoints.mpr ⟨edge, hedge, Or.inr rfl⟩))
      (hends _ (mem_endpoints.mpr ⟨other, hother, Or.inl rfl⟩))
      (hends _ (mem_endpoints.mpr ⟨other, hother, Or.inr rfl⟩))).mp hid
  exact Prod.ext hsource htarget

end Numbered

/-- The index of an id is that of the edge that is found by it. -/
theorem edgeIndex?_of_edge?
    {m : Model} {id : String} {edge : Edge}
    (h : m.edge? id = some edge) :
    edge.id = id ∧
      ∃ position, m.edgeIndex? id = some position ∧ m.edges[position]? = some edge := by
  obtain ⟨hid, position, hposition, rfl, hbefore⟩ := List.find?_eq_some_iff_getElem.mp h
  refine ⟨by simpa using hid, position, ?_, List.getElem?_eq_getElem hposition⟩
  refine List.findIdx?_eq_some_iff_getElem.mpr ⟨hposition, hid, ?_⟩
  intro rank hrank
  simpa using hbefore rank hrank

theorem edge?_of_edgeIndex?
    {m : Model} {position : Nat} {edge : Edge}
    (hfirst : m.edgeIndex? edge.id = some position)
    (hedge : m.edges[position]? = some edge) :
    m.edge? edge.id = some edge := by
  obtain ⟨hposition, _, hbefore⟩ := List.findIdx?_eq_some_iff_getElem.mp hfirst
  obtain ⟨_, hget⟩ := List.getElem?_eq_some_iff.mp hedge
  refine List.find?_eq_some_iff_getElem.mpr ⟨beq_self_eq_true _, position, hposition, hget, ?_⟩
  intro rank hrank
  simpa using hbefore rank hrank

/-- Edges are found by their ids exactly if the ids tell the ends. -/
theorem edge?_id_iff
    {m : Model}
    (h : AreNumbered m.edges) :
    (∀ edge ∈ m.edges, m.edge? edge.id = some edge) ↔ TellEnds m.edges := by
  constructor
  · intro hfound edge hedge other hother hid
    have hedge' := hfound edge hedge
    rw [hid, hfound other hother] at hedge'
    rw [Option.some.inj hedge']
  · intro htell edge hedge
    have hnodup := h.nodup_ids_iff.mpr htell
    unfold Model.edge?
    cases hfind : m.edges.find? (·.id == edge.id) with
    | none =>
        have hnone := List.find?_eq_none.mp hfind edge hedge
        simp at hnone
    | some found =>
        have hid : found.id = edge.id := by simpa using List.find?_some hfind
        rw [List.inj_on_of_nodup_map hnodup (List.mem_of_find?_eq_some hfind) hedge hid]

section Reading

variable {d : Diagram} {text : String}

/--
The ids of the edges of a text are distinct, and each finds its edge, exactly if
edges of one id have the same ends; the id of a new edge is that of an old one
exactly if the old one has other ends.  No such clash comes about where the ids of
nodes hold no underscore.
-/
theorem edge_ids_distinct_iff
    (hd : Diagram.ofText text = .ok d) :
    ((d.model.edges.map (·.id)).Nodup ↔ TellEnds d.model.edges) ∧
      ((∀ edge ∈ d.model.edges, d.model.edge? edge.id = some edge) ↔
        TellEnds d.model.edges) ∧
      (∀ (e : Editor) (source target id : String) (d' : Diagram),
        e.apply d (.createEdge (some source) (some target)) = .ok (.changed d' (some id)) →
          (id ∈ d.model.edges.map (·.id) ↔
            ∃ edge ∈ d.model.edges, edge.id = id ∧ edge.ends ≠ (source, target))) ∧
      ((∀ id ∈ endpoints d.model.edges, '_' ∉ id.toList) → TellEnds d.model.edges) := by
  have hnumbered := (isReading_of_ofText hd).areNumbered
  refine ⟨hnumbered.nodup_ids_iff, edge?_id_iff hnumbered, ?_,
    hnumbered.tellEnds_of_no_underscore⟩
  intro e source target id d' h
  obtain ⟨s, t, edge, hs, ht, _, _, hedge, _, _, _, hcreated⟩ := createEdge_eq_changed h
  cases hs
  cases ht
  have hid : id = Edge.nextId d.model.edges source target := by
    rw [Option.some.inj hcreated, hedge]
  rw [hid]
  exact hnumbered.nextId_mem_iff source target

/-- Of two edges between the same ends each has its own id. -/
theorem edge_ids_distinct_of_parallel_edges :
    ∃ d : Diagram,
      Diagram.ofText "A --> B\nA --> B" = .ok d ∧
      d.model.edges.map (·.id) = ["edge_A_B", "edge_A_B_1"] ∧
      (d.model.edges.map (·.id)).Nodup ∧
      ∀ edge ∈ d.model.edges, d.model.edge? edge.id = some edge := by
  have hd :
      Diagram.ofText "A --> B\nA --> B" =
        .ok {
          lines := ["A --> B", "A --> B"]
          model := {
            nodes := [placeholder "A", placeholder "B"]
            edges := [
              { id := "edge_A_B", source := "A", target := "B" },
              { id := "edge_A_B_1", source := "A", target := "B" }] } } := by
    rfl
  obtain ⟨hnodup, hfound, _, htell⟩ := edge_ids_distinct_iff hd
  have htells := htell (by decide)
  exact ⟨_, hd, rfl, hnodup.mpr htells, hfound.mpr htells⟩

/-- A diagram with underscores in ids of nodes, where two edges share an id. -/
def clashing : Diagram where
  lines := ["A_B --> C", "A --> B_C"]
  model := {
    nodes := [placeholder "A_B", placeholder "C", placeholder "A", placeholder "B_C"]
    edges := [
      { id := "edge_A_B_C", source := "A_B", target := "C" },
      { id := "edge_A_B_C", source := "A", target := "B_C" }] }

theorem ofText_clashing :
    Diagram.ofText "A_B --> C\nA --> B_C" = .ok clashing := by
  rfl

/-- Edges between other ends may share an id, also an old one and a new one. -/
theorem edge_ids_clash :
    ∃ c c' d : Diagram,
      Diagram.ofText "A_B --> C\nA --> B_C" = .ok d ∧
      ¬ (d.model.edges.map (·.id)).Nodup ∧
      (∃ edge ∈ d.model.edges, d.model.edge? edge.id ≠ some edge) ∧
      Diagram.ofText "A_B --> C" = .ok c ∧
      ({} : Editor).apply c (.createEdge (some "A") (some "B_C")) =
        .ok (.changed c' (some "edge_A_B_C")) ∧
      "edge_A_B_C" ∈ c.model.edges.map (·.id) := by
  have hc :
      Diagram.ofText "A_B --> C" =
        .ok {
          lines := ["A_B --> C"]
          model := {
            nodes := [placeholder "A_B", placeholder "C"]
            edges := [{ id := "edge_A_B_C", source := "A_B", target := "C" }] } } := by
    rfl
  have h :
      ({} : Editor).apply {
          lines := ["A_B --> C"]
          model := {
            nodes := [placeholder "A_B", placeholder "C"]
            edges := [{ id := "edge_A_B_C", source := "A_B", target := "C" }] } }
          (.createEdge (some "A") (some "B_C")) =
        .ok (.changed { clashing with lines := ["A_B --> C", "    A --> B_C"] }
          (some "edge_A_B_C")) := by
    rfl
  refine ⟨_, _, _, ofText_clashing, by decide, ?_, hc, h, by decide⟩
  exact ⟨{ id := "edge_A_B_C", source := "A", target := "B_C" }, by decide, by decide⟩

end Reading

end Flowchart
