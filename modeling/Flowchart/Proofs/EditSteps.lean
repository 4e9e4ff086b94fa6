import Flowchart.Edit
import Flowchart.Proofs.ModelReading

/-!
# What a successful edit has done

An edit that changes a diagram has passed all its checks, so it was given a known
shape, readable lines and lines that are read back, and it gives the new lines with
the rebuilt model.  There is one statement for every kind of edit; what an edit
does to lines and model follows from it alone.
-/

namespace Flowchart

open Edit

section Checks

theorem isOneLine_of_breaksLine
    {text : String}
    (h : breaksLine text = false) :
    IsOneLine text := by
  unfold breaksLine at h
  rw [Bool.or_eq_false_iff, List.contains_eq_mem, decide_eq_false_iff_not] at h
  exact h.1

/-- A line that declares a node with a shape and a label is read as that node. -/
theorem declaredNode_of_declaresAs
    {id label line : String} {shape : Shape}
    (hdeclares : declaresNode id line = true)
    (has : declaresAs shape label line = true) :
    ∃ body, Line.classify line = .node id body ∧
      Reading.declaredNode id body = ⟨id, label, shape, {}, true⟩ := by
  unfold declaresNode at hdeclares
  unfold declaresAs at has
  cases hkind : Line.classify line with
  | node other body =>
      rw [hkind] at hdeclares has
      simp only [Bool.and_eq_true, beq_iff_eq] at has hdeclares
      refine ⟨body, by rw [hdeclares], ?_⟩
      simp only [Reading.declaredNode, has.1, has.2]
  | _ =>
      rw [hkind] at hdeclares
      cases hdeclares

/-- A node line is read back if its label has no line break and the line declares the node. -/
theorem nodeReadsBack_eq_true
    {id label : String} {shape : Shape}
    (h : nodeReadsBack id shape label = .ok true) :
    IsOneLine label ∧
      ∃ body, Line.classify (Node.lineOf defaultIndent id shape label) = .node id body ∧
        Reading.declaredNode id body = ⟨id, label, shape, {}, true⟩ := by
  unfold nodeReadsBack at h
  cases hbreaks : breaksLine label with
  | true =>
      rw [hbreaks] at h
      cases h
  | false =>
      rw [hbreaks] at h
      obtain ⟨_, _, hread⟩ := bind_eq_ok_iff.mp h
      have hread := Except.ok.inj hread
      rw [Bool.and_eq_true] at hread
      exact ⟨isOneLine_of_breaksLine hbreaks, declaredNode_of_declaresAs hread.1 hread.2⟩

/-- A line that is read back as an edge is an edge line with the ends and the label. -/
theorem edgeReadsBack_eq_true
    {line source target label : String}
    (h : edgeReadsBack line source target label = true) :
    IsOneLine label ∧
      ∃ e, Line.classify line = .edge e ∧ e.source = source ∧ e.target = target ∧
        e.label.getD "" = label := by
  unfold edgeReadsBack at h
  rw [Bool.and_eq_true, Bool.not_eq_true'] at h
  obtain ⟨hbreaks, hread⟩ := h
  refine ⟨isOneLine_of_breaksLine hbreaks, ?_⟩
  cases hkind : Line.classify line with
  | edge e =>
      rw [hkind] at hread
      simp only [Bool.and_eq_true, beq_iff_eq] at hread
      exact ⟨e, rfl, hread.1.1, hread.1.2, hread.2⟩
  | _ =>
      rw [hkind] at hread
      cases hread

theorem checkEnd_eq_ok
    {given : Option String} {id : String}
    (h : Editor.checkEnd given = .ok id) :
    given = some id ∧ Text.isIdentifier id.toList = true := by
  unfold Editor.checkEnd at h
  split at h
  · split at h
    · rename_i hid
      cases h
      exact ⟨rfl, hid⟩
    · cases h
  · cases h

end Checks

section Edits

/-- A creation of a node is refused if its line is not read back, or waits for the model. -/
theorem createNode_of_readsBack
    {e : Editor} {d : Diagram} {shape : Shape} {given : Option String} {readsBack : Bool}
    (hstart : IsReadable (e.startLines d))
    (hread :
      nodeReadsBack (NodeId.next (e.startLines d) e.stem) shape (given.getD e.label) =
        .ok readsBack) :
    e.createNode d (.known shape) given =
      let id := NodeId.next (e.startLines d) e.stem
      let label := given.getD e.label
      let lines := append (e.startLines d) (Node.lineOf e.indent id shape label)
      if readsBack then
        rebuild (d.model.declared ++ [⟨id, label, shape, {}, true⟩]) d.model.edges d.model.nodes
          lines >>= fun model => .ok (.changed ⟨lines, model⟩ (some id))
      else .ok (.refused (.unwritableNodeLabel label shape)) := by
  unfold Editor.createNode
  simp only [ShapeRef.resolve, checkReadable_eq_ok_iff.mpr hstart, hread, bind, Except.bind]
  rfl

theorem createNode_eq_changed
    {e : Editor} {d d' : Diagram} {ref : ShapeRef} {given created : Option String}
    (h : e.createNode d ref given = .ok (.changed d' created)) :
    ∃ shape id,
      ref.resolve = .ok shape ∧
      id = NodeId.next (e.startLines d) e.stem ∧
      IsReadable (e.startLines d) ∧
      nodeReadsBack id shape (given.getD e.label) = .ok true ∧
      d'.lines =
        append (e.startLines d) (Node.lineOf e.indent id shape (given.getD e.label)) ∧
      rebuild (d.model.declared ++ [⟨id, given.getD e.label, shape, {}, true⟩]) d.model.edges
        d.model.nodes d'.lines = .ok d'.model ∧
      created = some id := by
  unfold Editor.createNode at h
  obtain ⟨shape, hshape, h⟩ := bind_eq_ok_iff.mp h
  obtain ⟨_, hreadable, h⟩ := bind_eq_ok_iff.mp h
  obtain ⟨readsBack, hreads, h⟩ := bind_eq_ok_iff.mp h
  cases readsBack with
  | true =>
      obtain ⟨model, hmodel, h⟩ := bind_eq_ok_iff.mp h
      cases h
      exact ⟨shape, _, hshape, rfl, checkReadable_eq_ok_iff.mp hreadable, hreads, rfl, hmodel,
        rfl⟩
  | false =>
      cases h

theorem createEdge_eq_changed
    {e : Editor} {d d' : Diagram} {source target created : Option String}
    (h : e.createEdge d source target = .ok (.changed d' created)) :
    ∃ s t edge,
      source = some s ∧ target = some t ∧
      Text.isIdentifier s.toList = true ∧ Text.isIdentifier t.toList = true ∧
      edge = Edge.mk (Edge.nextId d.model.edges s t) s t ""
        (edgeStyle (e.startLines d) d.model.edges.length) ∧
      IsReadable (e.startLines d) ∧
      d'.lines = append (e.startLines d) (edge.write e.indent) ∧
      rebuild d.model.declared (d.model.edges ++ [edge]) d.model.nodes d'.lines =
        .ok d'.model ∧
      created = some edge.id := by
  unfold Editor.createEdge at h
  split at h
  · cases h
  · cases h
  · rename_i s t hs ht
    obtain ⟨hsource, hsourceId⟩ := checkEnd_eq_ok hs
    obtain ⟨htarget, htargetId⟩ := checkEnd_eq_ok ht
    obtain ⟨_, hreadable, h⟩ := bind_eq_ok_iff.mp h
    obtain ⟨model, hmodel, h⟩ := bind_eq_ok_iff.mp h
    cases h
    exact ⟨s, t, _, hsource, htarget, hsourceId, htargetId, rfl,
      checkReadable_eq_ok_iff.mp hreadable, rfl, hmodel, rfl⟩

/-- The node lines of an id that say something else than a shape and a label. -/
def isStale (id label : String) (shape : Shape) (line : String) : Bool :=
  declaresNode id line && !declaresAs shape label line

/-- A stale node line written anew, and any other line as it is. -/
def freshLine (id label : String) (shape : Shape) (line : String) : String :=
  if isStale id label shape line then Node.lineOf (indentOf line) id shape label else line

theorem updateNode_eq_changed
    {e : Editor} {d d' : Diagram} {id label : String} {ref : ShapeRef} {style : NodeStyle}
    {created : Option String}
    (h : e.updateNode d id label ref style = .ok (.changed d' created)) :
    ∃ shape written,
      ref.resolve = .ok shape ∧
      IsReadable d.lines ∧
      (d.lines.any (declaresNode id) = true ∨ (d.model.node? id).isSome = true) ∧
      ((d.lines.any (isStale id label shape) = true ∨
          d.lines.any (declaresNode id) = false) →
        nodeReadsBack id shape label = .ok true) ∧
      written =
        (if d.lines.any (declaresNode id) then d.lines.map (freshLine id label shape)
        else
          append (d.lines.map (freshLine id label shape))
            (Node.lineOf e.indent id shape label)) ∧
      Editor.writeNodeStyle e written id style = .ok d'.lines ∧
      rebuild
        (if d.lines.any (declaresNode id) then
          d.model.declared.map fun n => if n.id == id then ⟨id, label, shape, style, true⟩ else n
        else d.model.declared ++ [⟨id, label, shape, style, true⟩])
        d.model.edges d.model.nodes d'.lines = .ok d'.model := by
  unfold Editor.updateNode at h
  obtain ⟨shape, hshape, h⟩ := bind_eq_ok_iff.mp h
  obtain ⟨_, hreadable, h⟩ := bind_eq_ok_iff.mp h
  have hreadable := checkReadable_eq_ok_iff.mp hreadable
  dsimp only at h
  split at h
  · cases h
  · rename_i hknown
    have hpresent :
        d.lines.any (declaresNode id) = true ∨ (d.model.node? id).isSome = true := by
      cases hdeclared : d.lines.any (declaresNode id) with
      | true =>
          exact Or.inl rfl
      | false =>
          cases hnode : d.model.node? id with
          | none =>
              rw [hdeclared, hnode] at hknown
              exact absurd rfl hknown
          | some n =>
              exact Or.inr rfl
    split at h
    · obtain ⟨readsBack, hreads, h⟩ := bind_eq_ok_iff.mp h
      cases readsBack with
      | false =>
          cases h
      | true =>
          obtain ⟨lines, hlines, h⟩ := bind_eq_ok_iff.mp h
          obtain ⟨model, hmodel, h⟩ := bind_eq_ok_iff.mp h
          cases h
          exact ⟨shape, _, hshape, hreadable, hpresent, fun _ => hreads, rfl, hlines, hmodel⟩
    · rename_i hwritten
      obtain ⟨readsBack, hreads, h⟩ := bind_eq_ok_iff.mp h
      cases hreads
      obtain ⟨lines, hlines, h⟩ := bind_eq_ok_iff.mp h
      obtain ⟨model, hmodel, h⟩ := bind_eq_ok_iff.mp h
      cases h
      refine ⟨shape, _, hshape, hreadable, hpresent, ?_, rfl, hlines, hmodel⟩
      intro hwritten'
      rw [Bool.or_eq_true, Bool.not_eq_true'] at hwritten
      exact absurd hwritten' hwritten

/-- An edge line with the bars of a label, and the line as it is if it has that label. -/
def relabelled (old : String) (line : EdgeLine) (label : String) : String :=
  if line.label.getD "" == label then old
  else Edge.lineOf (indentOf old) line.sourceText line.targetText label

theorem updateEdge_eq_changed
    {e : Editor} {d d' : Diagram} {id label : String} {style : EdgeStyle}
    {created : Option String}
    (h : e.updateEdge d id label style = .ok (.changed d' created)) :
    ∃ edge l new,
      d.model.edge? id = some edge ∧
      EdgePlace.find? d.lines edge.source edge.target none (some edge.id) = some l ∧
      new = relabelled (d.lines.getD l.lineNumber "") l.line label ∧
      (l.line.label.getD "" ≠ label → edgeReadsBack new edge.source edge.target label = true) ∧
      LinkStyle.replace (d.lines.set l.lineNumber new) l.position
        (style.write l.position e.indent) = .ok d'.lines ∧
      d'.model = {
        d.model with
        edges := d.model.edges.map fun other =>
          if other.id == edge.id then { edge with label, style } else other } := by
  unfold Editor.updateEdge at h
  split at h
  · cases h
  · rename_i edge hedge
    obtain ⟨_, _, h⟩ := bind_eq_ok_iff.mp h
    split at h
    · cases h
    · rename_i l hl
      change
        (if (!(l.line.label.getD "" == label) &&
            !edgeReadsBack (relabelled (d.lines.getD l.lineNumber "") l.line label)
              edge.source edge.target label) = true then _ else _) = _ at h
      split at h
      · cases h
      · rename_i hread
        obtain ⟨lines, hlines, h⟩ := bind_eq_ok_iff.mp h
        cases h
        refine ⟨edge, l, _, hedge, hl, rfl, ?_, hlines, rfl⟩
        intro hne
        have hlabel : (l.line.label.getD "" == label) = false := beq_eq_false_iff_ne.mpr hne
        simpa [hlabel] using hread

theorem deleteNode_eq_changed
    {d d' : Diagram} {id : String} {created : Option String}
    (h : Editor.deleteNode d id = .ok (.changed d' created)) :
    ∃ incident,
      IsReadable d.lines ∧
      incident =
        (EdgePlace.all d.lines).filter
          (fun l => l.line.source == id || l.line.target == id) ∧
      d'.lines =
        (LinkStyle.dropEdges d.lines (incident.map fun l => (l.position : Int))).filter
          (fun line => !(declaresNode id line || stylesNode id line)) ∧
      rebuild (d.model.declared.filter (·.id != id))
        (renumberEdges
          (d.model.edges.filter fun e =>
            !((Graph.ofModel d.model).edgesAt d.model id).contains e.id))
        (d.model.nodes.filter (·.id != id)) d'.lines = .ok d'.model := by
  unfold Editor.deleteNode at h
  obtain ⟨_, hreadable, h⟩ := bind_eq_ok_iff.mp h
  dsimp only at h
  split at h
  · cases h
  · obtain ⟨model, hmodel, h⟩ := bind_eq_ok_iff.mp h
    cases h
    exact ⟨_, checkReadable_eq_ok_iff.mp hreadable, rfl, rfl, hmodel⟩

theorem deleteEdge_eq_changed
    {d d' : Diagram} {id : String} {source target label created : Option String}
    (h : Editor.deleteEdge d id source target label = .ok (.changed d' created)) :
    ∃ s t l,
      (source <|> (d.model.edge? id).map (·.source)) = some s ∧
      (target <|> (d.model.edge? id).map (·.target)) = some t ∧
      IsReadable d.lines ∧
      EdgePlace.find? d.lines s t label ((d.model.edge? id).map (·.id)) = some l ∧
      d'.lines = LinkStyle.dropEdges d.lines [(l.position : Int)] ∧
      rebuild d.model.declared (renumberEdges (d.model.edges.eraseIdx l.position))
        d.model.nodes d'.lines = .ok d'.model := by
  unfold Editor.deleteEdge at h
  dsimp only at h
  split at h
  · rename_i s t hs ht
    obtain ⟨_, hreadable, h⟩ := bind_eq_ok_iff.mp h
    split at h
    · cases h
    · rename_i l hl
      obtain ⟨model, hmodel, h⟩ := bind_eq_ok_iff.mp h
      cases h
      exact ⟨s, t, l, hs, ht, checkReadable_eq_ok_iff.mp hreadable, hl, rfl, hmodel⟩
  · cases h

end Edits

end Flowchart
