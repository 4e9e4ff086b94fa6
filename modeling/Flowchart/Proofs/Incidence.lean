import Flowchart.Proofs.Deletion
import Flowchart.Proofs.EdgeIds

/-!
# Edges at a node

The graph of a model has an arc at a node exactly for the edges at the node, since
arcs replace each other only if ends and ids are the same.  The deletion of a node
takes every edge from the model that has the id of such an arc, and every edge line
at the node from the text.  So text and model stay in step exactly if no edge
elsewhere has the id of an edge at the node.

* `contains_edgesAt`: the ids that the graph gives are those of the edges at a node.
* `deleteNode_in_step_iff`: when the model after a deletion is that of the text.
-/

namespace Flowchart

/-- What tells arcs apart. -/
def Arc.key (a : Arc) : String × String × String := (a.source, a.target, a.id)

namespace Graph

/-- An added arc is there; of the others none is lost but for one of the same key. -/
theorem mem_keys_addArc
    {a : Arc} {arcs : List Arc} {key : String × String × String} :
    key ∈ (addArc a arcs).map Arc.key ↔ key = a.key ∨ key ∈ arcs.map Arc.key := by
  induction arcs with
  | nil =>
      simp [addArc]
  | cons b arcs ih =>
      unfold addArc
      split
      · rename_i hsame
        simp only [Bool.and_eq_true, beq_iff_eq] at hsame
        have hkey : b.key = a.key := by
          simp [Arc.key, hsame]
        rw [List.map_cons, List.map_cons, List.mem_cons, List.mem_cons, hkey]
        tauto
      · rw [List.map_cons, List.map_cons, List.mem_cons, List.mem_cons, ih]
        tauto

/-- Adds the arc of an edge that stands at a position. -/
def addEdge (arcs : List Arc) (ranked : Edge × Nat) : List Arc :=
  addArc ⟨ranked.1.source, ranked.1.target, ranked.1.id, ranked.1.label, ranked.2⟩ arcs

theorem arcs_ofModel
    (m : Model) :
    (ofModel m).arcs = m.edges.zipIdx.foldl addEdge [] := by
  rfl

theorem mem_keys_foldl_addEdge
    (ranked : List (Edge × Nat)) (arcs : List Arc) (key : String × String × String) :
    key ∈ (ranked.foldl addEdge arcs).map Arc.key ↔
      key ∈ arcs.map Arc.key ∨
        ∃ edge ∈ ranked.map Prod.fst, key = (edge.source, edge.target, edge.id) := by
  induction ranked generalizing arcs with
  | nil =>
      simp
  | cons first ranked ih =>
      rw [List.foldl_cons, ih, addEdge, mem_keys_addArc, List.map_cons]
      simp only [List.exists_mem_cons_iff, Arc.key]
      tauto

/-- The keys of the arcs are those of the edges. -/
theorem mem_keys_ofModel
    {m : Model} {key : String × String × String} :
    key ∈ (ofModel m).arcs.map Arc.key ↔
      ∃ edge ∈ m.edges, key = (edge.source, edge.target, edge.id) := by
  rw [arcs_ofModel, mem_keys_foldl_addEdge, List.zipIdx_map_fst, List.map_nil]
  exact or_iff_right List.not_mem_nil

/-- Some arc has given ends and a given id exactly if some edge has. -/
theorem exists_arc_ofModel_iff
    {m : Model} (p : String → String → String → Prop) :
    (∃ a ∈ (ofModel m).arcs, p a.source a.target a.id) ↔
      ∃ edge ∈ m.edges, p edge.source edge.target edge.id := by
  constructor
  · rintro ⟨a, ha, hp⟩
    obtain ⟨edge, hedge, hkey⟩ := mem_keys_ofModel.mp (List.mem_map_of_mem (f := Arc.key) ha)
    simp only [Arc.key, Prod.mk.injEq] at hkey
    obtain ⟨hsource, htarget, hid⟩ := hkey
    rw [hsource, htarget, hid] at hp
    exact ⟨edge, hedge, hp⟩
  · rintro ⟨edge, hedge, hp⟩
    obtain ⟨a, ha, hkey⟩ := List.mem_map.mp (mem_keys_ofModel.mpr ⟨edge, hedge, rfl⟩)
    simp only [Arc.key, Prod.mk.injEq] at hkey
    obtain ⟨hsource, htarget, hid⟩ := hkey
    rw [← hsource, ← htarget, ← hid] at hp
    exact ⟨a, ha, hp⟩

/-- The edges of an id that the graph gives at a node: some edge at the node has it. -/
theorem contains_edgesAt
    {m : Model} {edge : Edge}
    (hedge : edge ∈ m.edges)
    (id : String) :
    ((ofModel m).edgesAt m id).contains edge.id =
      m.edges.any fun other => !other.avoids id && other.id == edge.id := by
  have harcs :
      edge.id ∈ ((ofModel m).leaving id ++ (ofModel m).entering id).map (·.id) ↔
        ∃ a ∈ (ofModel m).arcs, (a.source = id ∨ a.target = id) ∧ a.id = edge.id := by
    unfold leaving entering
    simp only [List.mem_map, List.mem_append, List.mem_filter, beq_iff_eq, ← and_or_left,
      and_assoc]
  have hkeys :=
    @exists_arc_ofModel_iff m fun source target other =>
      (source = id ∨ target = id) ∧ other = edge.id
  unfold edgesAt
  rw [Bool.eq_iff_iff, List.contains_iff_mem, List.mem_filter, List.contains_iff_mem, harcs,
    hkeys, List.any_eq_true]
  simp only [not_avoids, Bool.and_eq_true, Bool.or_eq_true, beq_iff_eq]
  exact ⟨And.right, fun h => ⟨List.mem_map_of_mem hedge, h⟩⟩

end Graph

section IncidentIds

/-- Edges of one id are all at a node or all elsewhere. -/
def SeparatesAt (id : String) (edges : List Edge) : Prop :=
  ∀ edge ∈ edges, ∀ other ∈ edges, edge.id = other.id → edge.avoids id = other.avoids id

/-- Whether no edge at a node has the id of an edge. -/
def Edge.idAvoids (id : String) (edges : List Edge) (e : Edge) : Bool :=
  !edges.any fun other => !other.avoids id && other.id == e.id

theorem idAvoids_eq_true_iff
    {id : String} {edges : List Edge} {e : Edge} :
    e.idAvoids id edges = true ↔
      ∀ other ∈ edges, other.id = e.id → other.avoids id = true := by
  unfold Edge.idAvoids
  rw [Bool.not_eq_true', List.any_eq_false]
  simp only [Bool.and_eq_true, Bool.not_eq_true', beq_iff_eq, not_and]
  constructor
  · intro h other hother hid
    rw [← Bool.not_eq_false]
    exact fun hat => h other hother hat hid
  · intro h other hother hat hid
    rw [h other hother hid] at hat
    cases hat

/-- Where ids tell the ends, they are separated at every node. -/
theorem TellEnds.separatesAt
    {edges : List Edge}
    (h : TellEnds edges)
    (id : String) :
    SeparatesAt id edges := by
  intro edge hedge other hother hid
  obtain ⟨hsource, htarget⟩ := Prod.mk.inj (h edge hedge other hother hid)
  unfold Edge.avoids
  rw [hsource, htarget]

/--
Ids that are separated at a node are exactly those by which the same edges are kept.
Fewer edges are kept by id, so an equal number means that none is lost.
-/
theorem renumber_idAvoids_iff
    {id : String} {edges : List Edge} :
    renumberEdges (edges.filter (·.avoids id)) =
        renumberEdges (edges.filter (·.idAvoids id edges)) ↔
      SeparatesAt id edges := by
  have hfewer :
      edges.filter (·.idAvoids id edges) =
        (edges.filter (·.avoids id)).filter (·.idAvoids id edges) := by
    rw [List.filter_filter]
    apply List.filter_congr
    intro edge hedge
    cases hkept : edge.idAvoids id edges with
    | false =>
        rfl
    | true =>
        rw [idAvoids_eq_true_iff.mp hkept edge hedge rfl]
        rfl
  constructor
  · intro hsame
    have hlength := congrArg List.length hsame
    rw [length_renumberEdges, length_renumberEdges, hfewer, eq_comm,
      List.length_filter_eq_length_iff] at hlength
    have hkept :
        ∀ edge ∈ edges, ∀ other ∈ edges, edge.id = other.id → edge.avoids id = true →
          other.avoids id = true := by
      intro edge hedge other hother hid havoids
      exact idAvoids_eq_true_iff.mp
        (hlength edge (List.mem_filter.mpr ⟨hedge, havoids⟩)) other hother hid.symm
    intro edge hedge other hother hid
    rw [Bool.eq_iff_iff]
    exact ⟨hkept edge hedge other hother hid, hkept other hother edge hedge hid.symm⟩
  · intro hseparates
    congr 1
    apply List.filter_congr
    intro edge hedge
    rw [Bool.eq_iff_iff, idAvoids_eq_true_iff]
    constructor
    · intro havoids other hother hid
      rw [hseparates other hother edge hedge hid]
      exact havoids
    · exact fun h => h edge hedge rfl

end IncidentIds

section DeleteNode

variable {d d' : Diagram} {id : String} {created : Option String}

/-- The model keeps the edges whose ids no edge at the node has. -/
theorem deleteNode_model
    (h : Editor.deleteNode d id = .ok (.changed d' created)) :
    d'.model.edges =
        renumberEdges (d.model.edges.filter (·.idAvoids id d.model.edges)) ∧
      (completeNodes (d.model.declared.filter (·.id != id)) d'.model.edges
          (d.model.nodes.filter (·.id != id))).mapM
        (keepOrStyle (d.model.nodes.filter (·.id != id)) d'.lines) = .ok d'.model.nodes := by
  obtain ⟨_, _, _, _, hmodel⟩ := deleteNode_eq_changed h
  obtain ⟨hnodes, hedges⟩ := rebuild_eq_ok_iff.mp hmodel
  have hkept :
      (d.model.edges.filter fun e =>
          !((Graph.ofModel d.model).edgesAt d.model id).contains e.id) =
        d.model.edges.filter (·.idAvoids id d.model.edges) := by
    apply List.filter_congr
    intro edge hedge
    rw [Graph.contains_edgesAt hedge]
    rfl
  rw [hkept] at hnodes hedges
  rw [hedges]
  exact ⟨rfl, hnodes⟩

/-- Where ids are separated, the model is that of the remaining lines. -/
theorem deleteNode_model_reads
    (hd : d.IsReading)
    (hseparates : SeparatesAt id d.model.edges)
    (h : Editor.deleteNode d id = .ok (.changed d' created)) :
    Reading.Reads (d'.lines.map Line.classify) d'.model := by
  obtain ⟨incident, _, hincident, hlines, _⟩ := deleteNode_eq_changed h
  rw [hincident] at hlines
  obtain ⟨hedges, hnodes⟩ := deleteNode_model h
  rw [← renumber_idAvoids_iff.mpr hseparates] at hedges
  rw [hedges, mapM_keepOrStyle] at hnodes
  · have hmodel := (Except.ok.inj hnodes).symm
    have hreads := @reads_withoutNode d id hd
    rw [← hmodel, ← hedges, ← classify_deleted hlines] at hreads
    exact hreads
  · intro n hn
    obtain ⟨hmem, hkeep⟩ :=
      @mem_completeNodes_restrict _ _ (· != id) _ hd.reads endpoints_withoutNode n hn
    exact List.mem_map_of_mem (List.mem_filter.mpr ⟨hmem, hkeep⟩)

/--
The model after the deletion of a node is the one that its text is read as exactly
if the ids of edges are separated at the node.  Then the model loses the edges whose
lines are gone; otherwise it also loses edges elsewhere that have such an id.  Ids
are separated at every node where the ids of nodes hold no underscore.
-/
theorem deleteNode_in_step_iff
    {e : Editor} {text : String}
    (hd : Diagram.ofText text = .ok d)
    (h : e.apply d (.deleteNode id) = .ok (.changed d' created)) :
    ∃ r, Diagram.ofText d'.text = .ok r ∧
      r.model.edges = renumberEdges (d.model.edges.filter (·.avoids id)) ∧
      d'.model.edges =
        renumberEdges (d.model.edges.filter (·.idAvoids id d.model.edges)) ∧
      (r.model.edges = d'.model.edges ↔ SeparatesAt id d.model.edges) ∧
      (r.model = d'.model ↔ SeparatesAt id d.model.edges) ∧
      ((∀ end' ∈ endpoints d.model.edges, '_' ∉ end'.toList) →
        SeparatesAt id d.model.edges) := by
  have hreading := isReading_of_ofText hd
  obtain ⟨m, hread, hmodelEdges, _⟩ := deleteNode_reads hreading h
  obtain ⟨r, hr, rfl, _⟩ := hread.ofText_text_model
  have hedges := (deleteNode_model h).1
  have hiff : r.model.edges = d'.model.edges ↔ SeparatesAt id d.model.edges := by
    rw [hmodelEdges, hedges]
    exact renumber_idAvoids_iff
  refine ⟨r, hr, hmodelEdges, hedges, hiff, ?_, ?_⟩
  · constructor
    · intro hsame
      exact hiff.mp (by rw [hsame])
    · intro hseparates
      have hmodel := Reading.modelOf_eq_ok_iff.mpr (deleteNode_model_reads hreading hseparates h)
      rw [Reading.modelOf_eq_ok_iff.mpr hread.reads] at hmodel
      exact Except.ok.inj hmodel
  · intro hends
    exact (hreading.areNumbered.tellEnds_of_no_underscore hends).separatesAt id

/-- Underscores in ids of nodes do no harm as long as ids of edges stay apart. -/
theorem deleteNode_in_step_of_separate_ids :
    ∃ d d' r : Diagram,
      Diagram.ofText "A_B --> C\nA --> B" = .ok d ∧
      ({} : Editor).apply d (.deleteNode "A") = .ok (.changed d' none) ∧
      d'.lines = ["A_B --> C"] ∧
      Diagram.ofText d'.text = .ok r ∧
      r.model = d'.model := by
  have hd :
      Diagram.ofText "A_B --> C\nA --> B" =
        .ok {
          lines := ["A_B --> C", "A --> B"]
          model := {
            nodes := [placeholder "A_B", placeholder "C", placeholder "A", placeholder "B"]
            edges := [
              { id := "edge_A_B_C", source := "A_B", target := "C" },
              { id := "edge_A_B", source := "A", target := "B" }] } } := by
    rfl
  have h :
      ({} : Editor).apply {
          lines := ["A_B --> C", "A --> B"]
          model := {
            nodes := [placeholder "A_B", placeholder "C", placeholder "A", placeholder "B"]
            edges := [
              { id := "edge_A_B_C", source := "A_B", target := "C" },
              { id := "edge_A_B", source := "A", target := "B" }] } } (.deleteNode "A") =
        .ok (.changed {
          lines := ["A_B --> C"]
          model := {
            nodes := [placeholder "A_B", placeholder "C"]
            edges := [{ id := "edge_A_B_C", source := "A_B", target := "C" }] } } none) := by
    rfl
  obtain ⟨r, hr, _, _, _, hstep, _⟩ := deleteNode_in_step_iff hd h
  refine ⟨_, _, r, hd, h, rfl, hr, hstep.mpr ?_⟩
  unfold SeparatesAt
  decide

/-- An edge elsewhere that shares its id with one at the node is lost from the model only. -/
theorem deleteNode_out_of_step :
    ∃ d d' r : Diagram,
      Diagram.ofText "A_B --> C\nA --> B_C" = .ok d ∧
      ({} : Editor).apply d (.deleteNode "A") = .ok (.changed d' none) ∧
      d'.lines = ["A_B --> C"] ∧
      Diagram.ofText d'.text = .ok r ∧
      r.model.edges.map (·.ends) = [("A_B", "C")] ∧
      d'.model.edges = [] ∧
      r.model ≠ d'.model := by
  have h :
      ({} : Editor).apply clashing (.deleteNode "A") =
        .ok (.changed { lines := ["A_B --> C"], model := { nodes := [], edges := [] } } none) := by
    rfl
  have hr :
      Diagram.ofText "A_B --> C" =
        .ok {
          lines := ["A_B --> C"]
          model := {
            nodes := [placeholder "A_B", placeholder "C"]
            edges := [{ id := "edge_A_B_C", source := "A_B", target := "C" }] } } := by
    rfl
  refine ⟨_, _, _, ofText_clashing, h, rfl, hr, rfl, rfl, ?_⟩
  intro hsame
  cases hsame

end DeleteNode

end Flowchart
