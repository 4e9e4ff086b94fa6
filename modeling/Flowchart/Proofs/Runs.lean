import Flowchart.Proofs.Creation
import Flowchart.Proofs.Deletion
import Flowchart.Proofs.EdgeUpdate
import Flowchart.Proofs.NodeUpdate

/-!
# Runs of edits

A run carries out edits one after the other, and an edit that is refused or fails
changes nothing.  Along a run text and model may fall out of step, so what holds of
all diagrams of a run is less than that they are read of their texts: it is that
the model is well formed and declares the nodes that the lines declare.

* `isWellFormed_rebuild`: a rebuilt model is well formed if its declared nodes are.
* `isWellFormed_step`: every edit keeps a diagram well formed.
* `run_isWellFormed`: a diagram that was read stays well formed along every run.
-/

namespace Flowchart

open Edit

namespace Editor

/-- The diagram after an edit, which is the same one if the edit fails. -/
def step (e : Editor) (d : Diagram) (edit : Edit) : Diagram :=
  match e.apply d edit with
  | .ok outcome => outcome.after d
  | .error _ => d

/-- The diagram after some edits. -/
def run (e : Editor) (d : Diagram) (edits : List Edit) : Diagram :=
  edits.foldl e.step d

/-- What every edit that changes a diagram keeps is kept by every step. -/
theorem step_keeps
    {e : Editor} {d : Diagram} {P : Diagram → Prop}
    (hedit :
      ∀ edit d' created, e.apply d edit = .ok (.changed d' created) → P d')
    (hd : P d)
    (edit : Edit) :
    P (e.step d edit) := by
  unfold step
  cases h : e.apply d edit with
  | error fault =>
      exact hd
  | ok outcome =>
      cases outcome with
      | refused problem =>
          exact hd
      | changed d' created =>
          exact hedit edit d' created h

/-- What every step keeps holds along every run. -/
theorem run_keeps
    {e : Editor} {P : Diagram → Prop}
    (hstep : ∀ d edit, P d → P (e.step d edit))
    {d : Diagram}
    (hd : P d)
    (edits : List Edit) :
    P (e.run d edits) := by
  unfold run
  induction edits generalizing d with
  | nil =>
      exact hd
  | cons edit edits ih =>
      exact ih (hstep d edit hd)

end Editor

section WellFormedDiagrams

/--
A diagram with whole lines, in which no two nodes have the same id, the ends of
edges are nodes, declared nodes stand before placeholders, and node lines and
declared nodes have the same ids.
-/
structure Diagram.IsWellFormed (d : Diagram) : Prop where
  oneLine : ∀ line ∈ d.lines, IsOneLine line
  nodup : d.model.nodeIds.Nodup
  ends :
    ∀ edge ∈ d.model.edges, edge.source ∈ d.model.nodeIds ∧ edge.target ∈ d.model.nodeIds
  declared_first : d.model.nodes = d.model.declared ++ d.model.nodes.filter (!·.declared)
  declares :
    ∀ id,
      id ∈ d.model.declared.map (·.id) ↔
        ∃ line ∈ d.lines, ∃ body, Line.classify line = .node id body

theorem mem_map_id_declarations
    {lines : List String} {id : String} :
    id ∈ (Reading.declarations (lines.map Line.classify)).map (·.id) ↔
      ∃ line ∈ lines, ∃ body, Line.classify line = .node id body := by
  rw [← Reading.mem_map_id_declaredNodes, ← any_declaresNode_iff, List.any_eq_true]
  simp only [declaresNode_eq_true_iff, Line.IsNodeOf]

theorem Diagram.IsWellFormed.mem_declared_iff
    {d : Diagram} {id : String}
    (h : d.IsWellFormed) :
    id ∈ d.model.declared.map (·.id) ↔
      id ∈ (Reading.declarations (d.lines.map Line.classify)).map (·.id) := by
  rw [h.declares, mem_map_id_declarations]

/-- A node is declared in the model if and only if one of the lines declares it. -/
theorem Diagram.IsWellFormed.any_declaresNode_iff
    {d : Diagram} {id : String}
    (h : d.IsWellFormed) :
    d.lines.any (declaresNode id) = true ↔ id ∈ d.model.declared.map (·.id) := by
  rw [Flowchart.any_declaresNode_iff, h.mem_declared_iff, Reading.mem_map_id_declaredNodes]

theorem Diagram.IsWellFormed.nodup_declared
    {d : Diagram}
    (h : d.IsWellFormed) :
    (d.model.declared.map (·.id)).Nodup := by
  have hnodup := h.nodup
  unfold Model.nodeIds at hnodup
  rw [h.declared_first, List.map_append, List.nodup_append] at hnodup
  exact hnodup.1

/-- A diagram that was read is well formed. -/
theorem isWellFormed_of_isReading
    {d : Diagram}
    (h : d.IsReading) :
    d.IsWellFormed where
  oneLine := h.oneLine
  nodup := h.reads.nodup_nodeIds
  ends := by
    intro edge hedge
    constructor
    · exact h.reads.mem_nodeIds.mpr (Or.inr (mem_endpoints.mpr ⟨edge, hedge, Or.inl rfl⟩))
    · exact h.reads.mem_nodeIds.mpr (Or.inr (mem_endpoints.mpr ⟨edge, hedge, Or.inr rfl⟩))
  declared_first := h.reads.declared_eq.2.2
  declares := by
    intro id
    rw [h.reads.map_id_declared, Reading.mem_map_id_declaredNodes, mem_map_id_declarations]

end WellFormedDiagrams

section RebuiltModels

/-- Keeping or styling a node changes nothing but its style. -/
theorem plain_of_keepOrStyle
    {previous : List Node} {lines : List String} {n n' : Node}
    (h : keepOrStyle previous lines n = .ok n') :
    n'.plain = n.plain := by
  unfold keepOrStyle at h
  split at h
  · cases h
    rfl
  · unfold styled at h
    obtain ⟨_, _, h⟩ := bind_eq_ok_iff.mp h
    split at h
    · obtain ⟨s, _, h⟩ := bind_eq_ok_iff.mp h
      cases h
      rfl
    · cases h
      rfl

/-- A rebuilt model has the declared nodes and then placeholders for the other ends of edges. -/
theorem nodes_rebuild
    {declared previous : List Node} {edges : List Edge} {lines : List String} {m : Model}
    (hdeclared : ∀ n ∈ declared, n.declared = true)
    (h : rebuild declared edges previous lines = .ok m) :
    m.nodes = m.declared ++ m.nodes.filter (!·.declared) ∧
      m.declared.map (·.id) = declared.map (·.id) ∧
      (m.nodes.filter (!·.declared)).map (·.id) =
        newEnds (declared.map (·.id)) (endpoints edges) := by
  obtain ⟨hnodes, _⟩ := rebuild_eq_ok_iff.mp h
  have hplain :
      m.nodes.map Node.plain = (completeNodes declared edges previous).map Node.plain :=
    map_eq_map_of_forall₂ (mapM_eq_ok_iff.mp hnodes) fun n _ n' hn => plain_of_keepOrStyle hn
  rw [completeNodes_eq, List.map_append, List.map_eq_append_iff] at hplain
  obtain ⟨front, back, hsplit, hfront, hback⟩ := hplain
  have hids : ∀ ns : List Node, ns.map (·.id) = (ns.map Node.plain).map (·.id) := by
    intro ns
    rw [List.map_map]
    rfl
  have hmem :
      ∀ ns ns' : List Node, ns.map Node.plain = ns'.map Node.plain →
        ∀ n ∈ ns, ∃ n' ∈ ns', n'.declared = n.declared := by
    intro ns ns' hsame n hn
    have hn := List.mem_map_of_mem (f := Node.plain) hn
    rw [hsame] at hn
    obtain ⟨n', hn', hplain⟩ := List.mem_map.mp hn
    exact ⟨n', hn', by rw [← n'.plain_declared, hplain, n.plain_declared]⟩
  have hall : ∀ n ∈ front, n.declared = true := by
    intro n hn
    obtain ⟨n', hn', hsame⟩ := hmem _ _ hfront n hn
    rw [← hsame, hdeclared n' hn']
  have hnone : ∀ n ∈ back, n.declared = false := by
    intro n hn
    obtain ⟨n', hn', hsame⟩ := hmem _ _ hback n hn
    obtain ⟨id, _, rfl⟩ := List.mem_map.mp hn'
    rw [← hsame, former_declared]
  obtain ⟨hfirst, hsecond⟩ := Reading.filter_declared_append hall hnone
  unfold Model.declared
  rw [hsplit, hfirst, hsecond]
  refine ⟨rfl, ?_, ?_⟩
  · rw [hids, hfront, ← hids]
  · rw [hids, hback, ← hids, List.map_map]
    have hformer : (fun n : Node => n.id) ∘ former previous = id := by
      funext id
      exact former_id previous id
    rw [hformer, List.map_id]

/-- A rebuilt model is well formed if its declared nodes are those of the lines. -/
theorem isWellFormed_rebuild
    {declared previous : List Node} {edges : List Edge} {lines : List String} {m : Model}
    (honeLine : ∀ line ∈ lines, IsOneLine line)
    (hdeclared : ∀ n ∈ declared, n.declared = true)
    (hnodup : (declared.map (·.id)).Nodup)
    (hlines :
      ∀ id,
        id ∈ declared.map (·.id) ↔
          id ∈ (Reading.declarations (lines.map Line.classify)).map (·.id))
    (h : rebuild declared edges previous lines = .ok m) :
    (Diagram.mk lines m).IsWellFormed := by
  obtain ⟨hsplit, hfirst, hsecond⟩ := nodes_rebuild hdeclared h
  have hedges := (rebuild_eq_ok_iff.mp h).2
  have hids :
      m.nodeIds = declared.map (·.id) ++ newEnds (declared.map (·.id)) (endpoints edges) := by
    unfold Model.nodeIds
    rw [hsplit, List.map_append, hfirst, hsecond]
  have hend : ∀ id ∈ endpoints m.edges, id ∈ m.nodeIds := by
    intro id hid
    rw [hids, List.mem_append, mem_newEnds, ← hedges]
    by_cases hmem : id ∈ declared.map (·.id)
    · exact Or.inl hmem
    · exact Or.inr ⟨hid, hmem⟩
  constructor
  · exact honeLine
  · change m.nodeIds.Nodup
    rw [hids, List.nodup_append]
    refine ⟨hnodup, nodup_newEnds _ _, ?_⟩
    intro id hid other hother heq
    rw [← heq] at hother
    exact (mem_newEnds.mp hother).2 hid
  · intro edge hedge
    exact ⟨hend _ (mem_endpoints.mpr ⟨edge, hedge, Or.inl rfl⟩),
      hend _ (mem_endpoints.mpr ⟨edge, hedge, Or.inr rfl⟩)⟩
  · exact hsplit
  · intro id
    change id ∈ m.declared.map (·.id) ↔ _
    rw [hfirst, hlines, mem_map_id_declarations]

theorem declared_of_mem_declared
    {m : Model} {n : Node}
    (h : n ∈ m.declared) :
    n.declared = true :=
  (List.mem_filter.mp h).2

theorem declared_of_mem_declare
    {m : Model} {n k : Node}
    (hn : n.declared = true)
    (hk : k ∈ Reading.declare m.declared n) :
    k.declared = true := by
  rcases Reading.mem_declare hk with ⟨hk, _⟩ | rfl
  · exact declared_of_mem_declared hk
  · exact hn

end RebuiltModels

section Edits

variable {e : Editor} {d d' : Diagram} {created : Option String}

section Creation

variable (he : e.WritesLines) (hd : d.IsWellFormed)

include he hd

theorem isWellFormed_createNode
    {ref : ShapeRef} {given : Option String}
    (h : e.createNode d ref given = .ok (.changed d' created)) :
    d'.IsWellFormed := by
  obtain ⟨shape, id, body, line, _, hid, _, hline, hkind, _, hlines, hmodel, _⟩ :=
    createNode_spec he h
  have hextends := extends_created he d line
  rw [← hlines, hkind] at hextends
  have hfresh : id ∉ d.model.declared.map (·.id) := by
    rw [hd.mem_declared_iff, hid]
    exact next_not_mem_declarations he d
  refine isWellFormed_rebuild ?_ ?_ ?_ ?_ hmodel
  · rw [hlines]
    exact isOneLine_created he hd.oneLine hline
  · intro n hn
    rcases List.mem_append.mp hn with hn | hn
    · exact declared_of_mem_declared hn
    · rw [List.mem_singleton.mp hn]
  · rw [List.map_append, List.map_singleton, List.nodup_append]
    refine ⟨hd.nodup_declared, List.nodup_singleton _, ?_⟩
    intro other hother new hnew heq
    rw [heq, List.mem_singleton.mp hnew] at hother
    exact hfresh hother
  · intro other
    rw [hextends.declarations, List.map_append, List.map_append, List.mem_append,
      List.mem_append, hd.mem_declared_iff]
    rfl

theorem isWellFormed_createEdge
    {source target : Option String}
    (h : e.createEdge d source target = .ok (.changed d' created)) :
    d'.IsWellFormed := by
  obtain ⟨s, t, edge, line, _, _, _, _, hline, hkind, hlines, hmodel, _⟩ := createEdge_spec he h
  have hextends := extends_created he d line
  rw [← hlines, hkind] at hextends
  refine isWellFormed_rebuild ?_ (fun _ => declared_of_mem_declared) hd.nodup_declared ?_ hmodel
  · rw [hlines]
    exact isOneLine_created he hd.oneLine hline
  · intro other
    have hnone : Reading.declarations [Line.edge ⟨s, t, none, s, t⟩] = [] := by
      rfl
    rw [hextends.declarations, hnone, List.append_nil, hd.mem_declared_iff]

end Creation

section Update

variable (he : IsIndent e.indent) (hd : d.IsWellFormed)

include he hd

theorem isWellFormed_updateNode
    {id label : String} {ref : ShapeRef} {style : NodeStyle}
    (h : e.updateNode d id label ref style = .ok (.changed d' created)) :
    d'.IsWellFormed := by
  obtain ⟨shape, written, _, hnode, hstyle, hmodel⟩ := updateNode_gives he hd.oneLine h
  rw [redeclared_eq_declare (n := ⟨id, label, shape, style, true⟩) hd.any_declaresNode_iff]
    at hmodel
  refine isWellFormed_rebuild hstyle.oneLine ?_ (Reading.nodup_declare _ hd.nodup_declared) ?_
    hmodel
  · exact fun _ => declared_of_mem_declare rfl
  · intro other
    rw [← Reading.mem_map_id_declaredNodes,
      hstyle.same.declaredNodes_eq (by rintro _ ⟨_, rfl⟩; rfl), hnode.declared,
      Reading.mem_map_id_declare, Reading.mem_map_id_declare, hd.mem_declared_iff,
      Reading.mem_map_id_declaredNodes]

/-- An update of an edge gives every edge of the id the ends of one that there was. -/
theorem isWellFormed_updateEdge
    {id label : String} {style : EdgeStyle}
    (h : e.updateEdge d id label style = .ok (.changed d' created)) :
    d'.IsWellFormed := by
  obtain ⟨edge, l, line, hedge, _, _, _, _, hgives, hmodel⟩ := updateEdge_gives he hd.oneLine h
  have hnodes : d'.model.nodes = d.model.nodes := by
    rw [hmodel]
  have hids : d'.model.nodeIds = d.model.nodeIds := by
    unfold Model.nodeIds
    rw [hnodes]
  have hdeclared : d'.model.declared = d.model.declared := by
    unfold Model.declared
    rw [hnodes]
  constructor
  · exact hgives.oneLine
  · rw [hids]
    exact hd.nodup
  · intro other hother
    rw [hmodel] at hother
    obtain ⟨old, hold, rfl⟩ := List.mem_map.mp hother
    rw [hids]
    split
    · exact hd.ends edge (List.mem_of_find?_eq_some hedge)
    · exact hd.ends old hold
  · rw [hnodes, hdeclared]
    exact hd.declared_first
  · intro other
    rw [hdeclared, hd.mem_declared_iff, ← mem_map_id_declarations,
      ← Reading.mem_map_id_declaredNodes, ← Reading.mem_map_id_declaredNodes,
      hgives.same.declaredNodes_eq (by rintro _ (⟨_, rfl⟩ | ⟨_, rfl⟩) <;> rfl)]

end Update

section Deletion

variable (hd : d.IsWellFormed)

include hd

theorem isWellFormed_deleteNode
    {id : String}
    (h : Editor.deleteNode d id = .ok (.changed d' created)) :
    d'.IsWellFormed := by
  obtain ⟨_, _, rfl, hlines, hmodel⟩ := deleteNode_eq_changed h
  have hkinds := classify_deleted hlines
  refine isWellFormed_rebuild (isOneLine_deleted hd.oneLine hlines) ?_ ?_ ?_ hmodel
  · exact fun n hn => declared_of_mem_declared (List.mem_of_mem_filter hn)
  · exact hd.nodup_declared.sublist (List.filter_sublist.map _)
  · intro other
    have hfilter :
        ∀ ns : List Node,
          other ∈ (ns.filter (·.id != id)).map (·.id) ↔
            other ∈ ns.map (·.id) ∧ other ≠ id := by
      intro ns
      simp only [List.mem_map, List.mem_filter, bne_iff_ne]
      constructor
      · rintro ⟨n, ⟨hn, hne⟩, rfl⟩
        exact ⟨⟨n, hn, rfl⟩, hne⟩
      · rintro ⟨⟨n, hn, rfl⟩, hne⟩
        exact ⟨n, ⟨hn, hne⟩, rfl⟩
    rw [hkinds, declarations_withoutNode, hfilter, hfilter, hd.mem_declared_iff]

theorem isWellFormed_deleteEdge
    {id : String} {source target label : Option String}
    (h : Editor.deleteEdge d id source target label = .ok (.changed d' created)) :
    d'.IsWellFormed := by
  obtain ⟨_, _, l, _, _, _, _, hlines, hmodel⟩ := deleteEdge_eq_changed h
  have hpositions := nonneg_singleton l.position
  have hkinds :
      d'.lines.map Line.classify =
        LinkStyle.dropKinds [(l.position : Int)] 0 (d.lines.map Line.classify) := by
    rw [hlines]
    exact LinkStyle.map_classify_dropFrom hpositions 0 d.lines
  refine isWellFormed_rebuild ?_ (fun _ => declared_of_mem_declared) hd.nodup_declared ?_ hmodel
  · rw [hlines]
    exact LinkStyle.isOneLine_dropFrom hpositions hd.oneLine 0
  · intro other
    rw [hkinds, LinkStyle.declarations_dropKinds, hd.mem_declared_iff]

end Deletion

/-- Every edit keeps a diagram well formed. -/
theorem isWellFormed_step
    (he : e.WritesLines)
    (hd : d.IsWellFormed)
    (edit : Edit) :
    (e.step d edit).IsWellFormed := by
  refine Editor.step_keeps ?_ hd edit
  intro edit d' created h
  cases edit with
  | createNode ref given =>
      exact isWellFormed_createNode he hd h
  | createEdge source target =>
      exact isWellFormed_createEdge he hd h
  | updateNode id label ref style =>
      exact isWellFormed_updateNode he.indent hd h
  | updateEdge id label style =>
      exact isWellFormed_updateEdge he.indent hd h
  | deleteNode id =>
      exact isWellFormed_deleteNode hd h
  | deleteEdge id source target label =>
      exact isWellFormed_deleteEdge hd h

end Edits

/-- A diagram that was read of a text stays well formed along every run. -/
theorem run_isWellFormed
    {text : String} {d : Diagram}
    (hd : Diagram.ofText text = .ok d)
    (edits : List Edit) :
    (({} : Editor).run d edits).IsWellFormed :=
  Editor.run_keeps (P := Diagram.IsWellFormed)
    (fun _ edit hd => isWellFormed_step Editor.writesLines_default hd edit)
    (isWellFormed_of_isReading (isReading_of_ofText hd)) edits

/-- A run in which the text loses an edge of the model, with a fault and a refusal. -/
theorem run_isWellFormed_of_shared_edge_id :
    ∃ d,
      let edits : List Edit := [
        .updateEdge "edge_A_B_C" "x" {},
        .createNode (.unknown (.text "blob")) none,
        .createEdge (some "A") (some "no id"),
        .updateNode "B_C" "b" (.known .circle) {},
        .createEdge (some "Z") (some "B_C") ]
      Diagram.ofText "A_B --> C\nA --> B_C\nC[c]" = .ok d ∧
      (({} : Editor).run d edits).lines = [
        "A_B -->|x| C", "    linkStyle 0 stroke:#6b7280,color:#000000", "A --> B_C", "C[c]",
        "    B_C((b))", "    Z --> B_C"] ∧
      (({} : Editor).run d edits).model.edges.map Edge.ends =
        [("A_B", "C"), ("A_B", "C"), ("Z", "B_C")] ∧
      (({} : Editor).run d edits).model.nodeIds = ["C", "B_C", "A_B", "Z"] ∧
      (({} : Editor).run d edits).IsWellFormed := by
  have hd :
      Diagram.ofText "A_B --> C\nA --> B_C\nC[c]" =
        .ok {
          lines := ["A_B --> C", "A --> B_C", "C[c]"]
          model := {
            nodes := [
              { id := "C", label := "c" }, placeholder "A_B", placeholder "A",
              placeholder "B_C"]
            edges := [
              { id := "edge_A_B_C", source := "A_B", target := "C" },
              { id := "edge_A_B_C", source := "A", target := "B_C" }] } } := by
    rfl
  exact ⟨_, hd, by decide +kernel, by decide +kernel, by decide +kernel, run_isWellFormed hd _⟩

end Flowchart
