import Flowchart.Proofs.EditSteps
import Flowchart.Proofs.FreshIds
import Flowchart.Proofs.Rebuilding

/-!
# Creation

A new node or edge is written on one further line, and nothing that was read
before is read differently.  So the new model is the model of the new text: what
was there stays, the new node or edge comes with the style lines that already wait
for its id or rank, and an edge brings placeholders for ends that are no nodes yet.

Main result: `creation_reads_back`.
-/

namespace Flowchart

open Edit

/-- An editor whose indentation is blank and whose header is one header line. -/
structure Editor.WritesLines (e : Editor) : Prop where
  indent : IsIndent e.indent
  header_oneLine : IsOneLine e.header
  header : ∃ keyword direction, Line.classify e.header = .header keyword direction

theorem Editor.writesLines_default :
    ({} : Editor).WritesLines :=
  ⟨isIndent_default, by decide, "flowchart", some "TD", rfl⟩

/-- The edits that create something. -/
def Edit.IsCreation : Edit → Prop
  | .createNode _ _ => True
  | .createEdge _ _ => True
  | _ => False

/--
What an edit adds to a model: a declared node of a new id, or an edge behind all
others with placeholders for those of its ends that were no nodes.
-/
def Edit.Adds (e : Editor) (m m' : Model) (created : Option String) : Edit → Prop
  | .createNode ref given =>
      m'.edges = m.edges ∧
      ∃ n shape,
        m'.nodes = m.declared ++ n :: m.nodes.filter (!·.declared) ∧
        n.declared = true ∧ n.id ∉ m.nodeIds ∧ created = some n.id ∧
        n.label = given.getD e.label ∧ ref.resolve = .ok shape ∧ n.shape = shape
  | .createEdge source target =>
      ∃ edge new,
        m'.edges = m.edges ++ [edge] ∧ m'.nodes = m.nodes ++ new ∧
        created = some edge.id ∧ source = some edge.source ∧ target = some edge.target ∧
        ∀ n ∈ new,
          n.declared = false ∧ (n.id = edge.source ∨ n.id = edge.target) ∧ n.id ∉ m.nodeIds
  | _ => False

section Creation

variable {e : Editor} {d d' : Diagram}

section LinesAfterCreation

/-- The lines after a creation show what the text shows, and then the new line. -/
theorem extends_created
    (he : e.WritesLines)
    (d : Diagram) (line : String) :
    Extends (d.lines.map Line.classify) ((append (e.startLines d) line).map Line.classify)
      (Line.classify line) := by
  obtain ⟨keyword, direction, hheader⟩ := he.header
  exact (extends_startLines hheader d "").trans (extends_append _ line)

theorem isOneLine_created
    {line : String}
    (he : e.WritesLines)
    (hd : ∀ other ∈ d.lines, IsOneLine other)
    (hline : IsOneLine line) :
    ∀ other ∈ append (e.startLines d) line, IsOneLine other := by
  intro other hother
  rcases mem_append_iff.mp hother with rfl | hother
  · exact hline
  · unfold Editor.startLines at hother
    split at hother
    · rw [List.mem_singleton] at hother
      rw [hother]
      exact he.header_oneLine
    · exact hd other hother

theorem isReadable_append
    {lines : List String} {line : String}
    (hlines : IsReadable lines)
    (hline : ∀ digits, Line.classify line ≠ .overlong digits) :
    IsReadable (append lines line) := by
  intro other hother
  rcases mem_append_iff.mp hother with rfl | hother
  · exact hline
  · exact hlines other hother

/-- Lines to which a line that says something is added are not a single empty one. -/
theorem append_ne_singleton
    {line : String}
    (hline : ∀ text, Line.classify line ≠ .other text)
    (lines : List String) :
    append lines line ≠ [""] := by
  intro h
  have hmem : line ∈ append lines line := mem_append_iff.mpr (Or.inl rfl)
  rw [h, List.mem_singleton] at hmem
  exact hline "" (by rw [hmem]; exact Line.classify_of_isBlankLine rfl)

/-- The next id is not declared by a line. -/
theorem next_not_mem_declarations
    (he : e.WritesLines)
    (d : Diagram) :
    NodeId.next (e.startLines d) e.stem ∉
      (Reading.declarations (d.lines.map Line.classify)).map (·.id) := by
  obtain ⟨keyword, direction, hheader⟩ := he.header
  have hstart := (extends_startLines hheader d "").declarations
  have hnone : Reading.declarations [Line.other ""] = [] := by
    rfl
  rw [hnone, List.append_nil] at hstart
  intro hmem
  apply NodeId.next_not_mem_used (e.startLines d) e.stem
  rw [NodeId.mem_used_iff, hstart]
  exact Or.inl hmem

/-- The next id is not the id of a node. -/
theorem next_not_mem_nodeIds
    (he : e.WritesLines)
    (hd : d.IsReading) :
    NodeId.next (e.startLines d) e.stem ∉ d.model.nodeIds := by
  obtain ⟨keyword, direction, hheader⟩ := he.header
  have hedges :
      Reading.modelEdges ((e.startLines d).map Line.classify) =
        Reading.modelEdges (d.lines.map Line.classify) :=
    (extends_startLines hheader d "").modelEdges_eq rfl fun _ => rfl
  intro hmem
  rcases hd.reads.mem_nodeIds.mp hmem with hdeclared | hend
  · rw [hd.reads.map_id_declared, Reading.mem_map_id_declaredNodes] at hdeclared
    exact next_not_mem_declarations he d hdeclared
  · apply NodeId.next_not_mem_used (e.startLines d) e.stem
    rw [NodeId.mem_used_iff, hedges, ← hd.reads.edges]
    exact Or.inr hend

end LinesAfterCreation

section NewNodes

/-- A new node is written on one line that declares it. -/
theorem createNode_spec
    {ref : ShapeRef} {given created : Option String}
    (he : e.WritesLines)
    (h : e.createNode d ref given = .ok (.changed d' created)) :
    ∃ shape id body line,
      ref.resolve = .ok shape ∧
      id = NodeId.next (e.startLines d) e.stem ∧
      IsReadable (e.startLines d) ∧
      IsOneLine line ∧
      Line.classify line = .node id body ∧
      Reading.declaredNode id body = ⟨id, given.getD e.label, shape, {}, true⟩ ∧
      d'.lines = append (e.startLines d) line ∧
      rebuild (d.model.declared ++ [⟨id, given.getD e.label, shape, {}, true⟩]) d.model.edges
        d.model.nodes d'.lines = .ok d'.model ∧
      created = some id := by
  obtain ⟨shape, id, hshape, hid, hstart, hreads, hlines, hmodel, hcreated⟩ :=
    createNode_eq_changed h
  obtain ⟨hlabel, body, hdefault, hdeclared⟩ := nodeReadsBack_eq_true hreads
  have hkind :
      Line.classify (Node.lineOf e.indent id shape (given.getD e.label)) = .node id body :=
    classify_nodeLine isIndent_default.blank he.indent.blank hdefault (by simp)
  have hline : IsOneLine (Node.lineOf e.indent id shape (given.getD e.label)) :=
    isOneLine_nodeLine he.indent.oneLine (isIdentifier_of_classify_node hkind) hlabel
  exact ⟨shape, id, body, _, hshape, hid, hstart, hline, hkind, hdeclared, hlines, hmodel,
    hcreated⟩

theorem createNode_reads_back
    {ref : ShapeRef} {given created : Option String}
    (he : e.WritesLines)
    (hd : d.IsReading)
    (h : e.createNode d ref given = .ok (.changed d' created)) :
    d'.IsReading ∧ d'.lines ≠ [""] ∧
      (Edit.createNode ref given).Adds e d.model d'.model created := by
  obtain ⟨shape, id, body, line, hshape, hid, hstart, hline, hkind, hdeclared, hlines, hmodel,
    hcreated⟩ := createNode_spec he h
  have hfresh : id ∉ d.model.nodeIds := by
    rw [hid]
    exact next_not_mem_nodeIds he hd
  have hextends :
      Extends (d.lines.map Line.classify) (d'.lines.map Line.classify) (.node id body) := by
    rw [hlines, ← hkind]
    exact extends_created he d _
  have hcomplete :=
    hd.reads.completeNodes_declare (n := ⟨id, given.getD e.label, shape, {}, true⟩) hfresh
  have hmem :
      ∀ n ∈ completeNodes (d.model.declared ++ [⟨id, given.getD e.label, shape, {}, true⟩])
          d.model.edges d.model.nodes,
        n ∈ d.model.nodes ∨ n = ⟨id, given.getD e.label, shape, {}, true⟩ := by
    intro n hn
    rw [hcomplete] at hn
    rcases List.mem_append.mp hn with hn | hn
    · exact Or.inl (List.mem_of_mem_filter hn)
    · rcases List.mem_cons.mp hn with hn | hn
      · exact Or.inr hn
      · exact Or.inl (List.mem_of_mem_filter hn)
  have hknown : ∀ n ∈ d.model.nodes, n.id ∈ d.model.nodes.map (·.id) :=
    fun n hn => List.mem_map_of_mem hn
  refine ⟨⟨?_, ?_, ?_⟩, ?_, ?_⟩
  · rw [hlines]
    exact isOneLine_created he hd.oneLine hline
  · rw [hlines]
    exact isReadable_append hstart (by simp [hkind])
  · refine reads_rebuild hmodel ?_ ?_ ?_ ?_ ?_
    · rw [hextends.declaredNodes_append, List.map_append, hd.reads.declared_eq.1, hdeclared]
      · rfl
      · rw [← hd.reads.map_id_declared]
        exact fun hmem => hfresh (hd.reads.mem_nodeIds.mpr (Or.inl hmem))
    · rw [hextends.modelEdges_eq rfl fun _ => rfl]
      exact hd.reads.edges
    · exact fun n hn => hd.reads.plain_of_not_declared hn
    · intro n hn hprevious
      rcases hmem n hn with hn | rfl
      · rw [hextends.styleOf_eq rfl]
        exact hd.reads.styles n hn
      · exact absurd hprevious hfresh
    · intro n hn hprevious
      rcases hmem n hn with hn | rfl
      · exact absurd (hknown n hn) hprevious
      · rfl
  · rw [hlines]
    exact append_ne_singleton (by simp [hkind]) _
  · obtain ⟨hnodes, hedges⟩ := rebuild_eq_ok_iff.mp hmodel
    rw [hcomplete] at hnodes
    obtain ⟨n', hstyled, hnodes⟩ :=
      mapM_keepOrStyle_insert (fun n hn => hknown n (List.mem_of_mem_filter hn))
        (fun n hn => hknown n (List.mem_of_mem_filter hn)) hfresh hnodes
    obtain ⟨_, hplain, _⟩ := (styled_eq_ok_iff rfl).mp hstyled
    have hn' : n' = ⟨id, given.getD e.label, shape, n'.style, true⟩ :=
      Node.eq_of_plain_eq hplain rfl
    refine ⟨hedges, n', shape, hnodes, ?_⟩
    rw [hn']
    exact ⟨rfl, hfresh, hcreated, rfl, hshape, rfl⟩

end NewNodes

section NewEdges

/-- A new edge line gives a further edge with the link style that waits for its rank. -/
theorem modelEdges_created
    {lines : List String} {s t : String}
    (he : e.WritesLines)
    (hd : d.IsReading)
    (hextends :
      Extends (d.lines.map Line.classify) (lines.map Line.classify) (.edge ⟨s, t, none, s, t⟩)) :
    Reading.modelEdges (lines.map Line.classify) =
      d.model.edges ++
        [⟨Edge.nextId d.model.edges s t, s, t, "",
          edgeStyle (e.startLines d) d.model.edges.length⟩] := by
  obtain ⟨keyword, direction, hheader⟩ := he.header
  have hwaiting :
      Line.edgeProperties d.model.edges.length ((e.startLines d).map Line.classify) =
        Line.edgeProperties d.model.edges.length (d.lines.map Line.classify) := by
    rw [(extends_startLines hheader d "").edgeProperties]
    exact List.append_nil _
  have happend :=
    Reading.modelEdges_append (e := ⟨s, t, none, s, t⟩) hextends.edges fun rank => by
      rw [hextends.edgeProperties]
      exact List.append_nil _
  rw [← hd.reads.edges] at happend
  unfold edgeStyle
  rw [happend, hwaiting]
  rfl

/-- New placeholders stay undeclared nodes of their ids when they are styled. -/
theorem of_mem_styled
    {previous new : List Node} {ids lines : List String} {n : Node}
    (hids : ∀ id ∈ ids, id ∉ previous.map (·.id))
    (h : (ids.map placeholder).mapM (keepOrStyle previous lines) = .ok new)
    (hn : n ∈ new) :
    n.declared = false ∧ n.id ∈ ids := by
  obtain ⟨p, hp, hstyled⟩ := exists_of_forall₂ (mapM_eq_ok_iff.mp h) hn
  obtain ⟨id, hid, rfl⟩ := List.mem_map.mp hp
  rw [keepOrStyle_of_not_mem (hids id hid), styled_eq_ok_iff rfl] at hstyled
  obtain ⟨_, hplain, _⟩ := hstyled
  constructor
  · rw [← n.plain_declared, hplain]
    rfl
  · have hnid : n.id = id := by
      rw [← n.plain_id, hplain]
      rfl
    rw [hnid]
    exact hid

/-- A new edge is written on one line between its ends. -/
theorem createEdge_spec
    {source target created : Option String}
    (he : e.WritesLines)
    (h : e.createEdge d source target = .ok (.changed d' created)) :
    ∃ s t edge line,
      source = some s ∧ target = some t ∧
      edge = Edge.mk (Edge.nextId d.model.edges s t) s t ""
        (edgeStyle (e.startLines d) d.model.edges.length) ∧
      IsReadable (e.startLines d) ∧
      IsOneLine line ∧
      Line.classify line = .edge ⟨s, t, none, s, t⟩ ∧
      d'.lines = append (e.startLines d) line ∧
      rebuild d.model.declared (d.model.edges ++ [edge]) d.model.nodes d'.lines =
        .ok d'.model ∧
      created = some edge.id := by
  obtain ⟨s, t, edge, hsource, htarget, hs, ht, hedge, hstart, hlines, hmodel, hcreated⟩ :=
    createEdge_eq_changed h
  have hwrite : edge.write e.indent = Edge.lineOf e.indent s t "" := by
    rw [hedge]
    rfl
  have hkind : Line.classify (Edge.lineOf e.indent s t "") = .edge ⟨s, t, none, s, t⟩ :=
    classify_edgeLine he.indent.blank hs ht (by decide)
  have hline : IsOneLine (Edge.lineOf e.indent s t "") :=
    isOneLine_edgeLine he.indent.oneLine (isOneLine_of_isIdentifier hs)
      (isOneLine_of_isIdentifier ht) (by decide)
  rw [hwrite] at hlines
  exact ⟨s, t, edge, _, hsource, htarget, hedge, hstart, hline, hkind, hlines, hmodel, hcreated⟩

theorem createEdge_reads_back
    {source target created : Option String}
    (he : e.WritesLines)
    (hd : d.IsReading)
    (h : e.createEdge d source target = .ok (.changed d' created)) :
    d'.IsReading ∧ d'.lines ≠ [""] ∧
      (Edit.createEdge source target).Adds e d.model d'.model created := by
  obtain ⟨s, t, edge, line, hsource, htarget, hedge, hstart, hline, hkind, hlines, hmodel,
    hcreated⟩ := createEdge_spec he h
  subst hedge
  have hextends :
      Extends (d.lines.map Line.classify) (d'.lines.map Line.classify)
        (.edge ⟨s, t, none, s, t⟩) := by
    rw [hlines, ← hkind]
    exact extends_created he d _
  have hcomplete :=
    hd.reads.completeNodes_append
      [⟨Edge.nextId d.model.edges s t, s, t, "",
        edgeStyle (e.startLines d) d.model.edges.length⟩]
  have hknown : ∀ n ∈ d.model.nodes, n.id ∈ d.model.nodes.map (·.id) :=
    fun n hn => List.mem_map_of_mem hn
  refine ⟨⟨?_, ?_, ?_⟩, ?_, ?_⟩
  · rw [hlines]
    exact isOneLine_created he hd.oneLine hline
  · rw [hlines]
    exact isReadable_append hstart (by simp [hkind])
  · refine reads_rebuild hmodel ?_ (modelEdges_created he hd hextends).symm ?_ ?_ ?_
    · rw [hextends.declaredNodes_eq rfl]
      exact hd.reads.declared_eq.1
    · exact fun n hn => hd.reads.plain_of_not_declared hn
    · intro n hn hprevious
      rw [hcomplete] at hn
      rcases List.mem_append.mp hn with hn | hn
      · rw [hextends.styleOf_eq rfl]
        exact hd.reads.styles n hn
      · obtain ⟨id, hid, rfl⟩ := List.mem_map.mp hn
        exact absurd hprevious (mem_newEnds.mp hid).2
    · intro n hn hprevious
      rw [hcomplete] at hn
      rcases List.mem_append.mp hn with hn | hn
      · exact absurd (hknown n hn) hprevious
      · obtain ⟨id, _, rfl⟩ := List.mem_map.mp hn
        rfl
  · rw [hlines]
    exact append_ne_singleton (by simp [hkind]) _
  · obtain ⟨hnodes, hmodelEdges⟩ := rebuild_eq_ok_iff.mp hmodel
    rw [hcomplete] at hnodes
    obtain ⟨new, hnew, hnodes⟩ := mapM_keepOrStyle_append hknown hnodes
    refine ⟨_, new, hmodelEdges, hnodes, hcreated, hsource, htarget, ?_⟩
    intro n hn
    obtain ⟨hdeclared, hid⟩ := of_mem_styled (fun _ hid => (mem_newEnds.mp hid).2) hnew hn
    obtain ⟨hend, hfresh⟩ := mem_newEnds.mp hid
    exact ⟨hdeclared, by simpa [endpoints, eq_comm] using hend, hfresh⟩

end NewEdges

section Creations

/-- What is added comes beside what was there. -/
theorem Edit.Adds.mem_of_mem
    {m m' : Model} {created : Option String} {edit : Edit}
    (hm : m.nodes = m.declared ++ m.nodes.filter (!·.declared))
    (h : edit.Adds e m m' created) :
    (∀ n ∈ m.nodes, n ∈ m'.nodes) ∧ ∀ edge ∈ m.edges, edge ∈ m'.edges := by
  cases edit with
  | createNode ref given =>
      obtain ⟨hedges, n, shape, hnodes, _⟩ := h
      constructor
      · intro k hk
        rw [hm] at hk
        rw [hnodes]
        rcases List.mem_append.mp hk with hk | hk
        · exact List.mem_append_left _ hk
        · exact List.mem_append_right _ (List.mem_cons_of_mem _ hk)
      · intro edge hedge
        rw [hedges]
        exact hedge
  | createEdge source target =>
      obtain ⟨edge, new, hedges, hnodes, _⟩ := h
      constructor
      · intro k hk
        rw [hnodes]
        exact List.mem_append_left _ hk
      · intro k hk
        rw [hedges]
        exact List.mem_append_left _ hk
  | _ =>
      cases h

theorem create_reads_back
    {edit : Edit} {created : Option String}
    (he : e.WritesLines)
    (hd : d.IsReading)
    (hedit : edit.IsCreation)
    (h : e.apply d edit = .ok (.changed d' created)) :
    d'.IsReading ∧ d'.lines ≠ [""] ∧ edit.Adds e d.model d'.model created := by
  cases edit with
  | createNode ref given =>
      exact createNode_reads_back he hd h
  | createEdge source target =>
      exact createEdge_reads_back he hd h
  | _ =>
      cases hedit

/--
A diagram after a creation is what its text is read as.  All nodes and edges are
still there, and the model has what the edit adds and nothing else.
-/
theorem creation_reads_back
    {text : String} {edit : Edit} {created : Option String}
    (he : e.WritesLines)
    (hd : Diagram.ofText text = .ok d)
    (hedit : edit.IsCreation)
    (h : e.apply d edit = .ok (.changed d' created)) :
    Diagram.ofText d'.text = .ok d' ∧
      (∀ n ∈ d.model.nodes, n ∈ d'.model.nodes) ∧
      (∀ edge ∈ d.model.edges, edge ∈ d'.model.edges) ∧
      edit.Adds e d.model d'.model created := by
  have hreading := isReading_of_ofText hd
  obtain ⟨hread, hne, hadds⟩ := create_reads_back he hreading hedit h
  obtain ⟨hnodes, hedges⟩ := hadds.mem_of_mem hreading.reads.declared_eq.2.2
  exact ⟨hread.ofText_text hne, hnodes, hedges, hadds⟩

/--
A new node takes the style that waits for its id.  A new edge takes the link style of its
rank, and its new end the style of its id.
-/
theorem creation_reads_back_of_waiting_styles :
    ∃ c c' d d' : Diagram,
      ({} : Editor).WritesLines ∧
      Diagram.ofText "style node1 fill:#0000ff\n" = .ok c ∧
      (Edit.createNode (.known .circle) (some "x")).IsCreation ∧
      ({} : Editor).apply c (.createNode (.known .circle) (some "x")) =
        .ok (.changed c' (some "node1")) ∧
      c'.lines = ["style node1 fill:#0000ff", "    node1((x))", ""] ∧
      c'.model.nodes.map (·.style.backgroundColor.text) = ["#0000ff"] ∧
      Diagram.ofText c'.text = .ok c' ∧
      (Edit.createNode (.known .circle) (some "x")).Adds {} c.model c'.model (some "node1") ∧
      Diagram.ofText "linkStyle 0 stroke:#00ff00\nstyle B fill:#ff0000\n" = .ok d ∧
      (Edit.createEdge (some "A") (some "B")).IsCreation ∧
      ({} : Editor).apply d (.createEdge (some "A") (some "B")) =
        .ok (.changed d' (some "edge_A_B")) ∧
      d'.model.edges.map (·.style.lineColor.text) = ["#00ff00"] ∧
      d'.model.nodes.map (·.style.backgroundColor.text) = ["#ffffff", "#ff0000"] ∧
      Diagram.ofText d'.text = .ok d' ∧
      (∀ n ∈ d.model.nodes, n ∈ d'.model.nodes) ∧
      (∀ edge ∈ d.model.edges, edge ∈ d'.model.edges) ∧
      (Edit.createEdge (some "A") (some "B")).Adds {} d.model d'.model (some "edge_A_B") := by
  have he : ({} : Editor).WritesLines :=
    Editor.writesLines_default
  have hc :
      Diagram.ofText "style node1 fill:#0000ff\n" =
        .ok { lines := ["style node1 fill:#0000ff", ""] } := by
    rfl
  have hnode :
      ({} : Editor).apply { lines := ["style node1 fill:#0000ff", ""] }
          (.createNode (.known .circle) (some "x")) =
        .ok (.changed {
          lines := ["style node1 fill:#0000ff", "    node1((x))", ""]
          model := {
            nodes := [{
              id := "node1"
              label := "x"
              shape := Shape.circle
              style := { backgroundColor := ⟨"#0000ff", rfl⟩ } }] } } (some "node1")) := by
    rfl
  have hd :
      Diagram.ofText "linkStyle 0 stroke:#00ff00\nstyle B fill:#ff0000\n" =
        .ok { lines := ["linkStyle 0 stroke:#00ff00", "style B fill:#ff0000", ""] } := by
    rfl
  have hedge :
      ({} : Editor).apply
          { lines := ["linkStyle 0 stroke:#00ff00", "style B fill:#ff0000", ""] }
          (.createEdge (some "A") (some "B")) =
        .ok (.changed {
          lines := [
            "linkStyle 0 stroke:#00ff00", "style B fill:#ff0000", "    A --> B", ""]
          model := {
            nodes := [
              placeholder "A",
              { placeholder "B" with style := { backgroundColor := ⟨"#ff0000", rfl⟩ } }]
            edges := [{
              id := "edge_A_B"
              source := "A"
              target := "B"
              style := { lineColor := ⟨"#00ff00", rfl⟩ } }] } } (some "edge_A_B")) := by
    rfl
  have hnodeCreates : (Edit.createNode (.known .circle) (some "x")).IsCreation :=
    trivial
  have hedgeCreates : (Edit.createEdge (some "A") (some "B")).IsCreation :=
    trivial
  obtain ⟨hread, _, _, hadds⟩ := creation_reads_back he hc hnodeCreates hnode
  exact ⟨_, _, _, _, he, hc, hnodeCreates, hnode, rfl, rfl, hread, hadds, hd, hedgeCreates,
    hedge, rfl, rfl, creation_reads_back he hd hedgeCreates hedge⟩

end Creations

end Creation

end Flowchart
