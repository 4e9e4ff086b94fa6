import Flowchart.Proofs.Creation
import Flowchart.Proofs.Idempotence
import Flowchart.Proofs.SuccessiveRemovals

/-!
# Withdrawal

A node that was just created has an id that nothing names, so no edge is at it, and
no line declares it but the one that was written.  Deleting it takes that line away
again, wherever among the blank lines it stands, and rebuilds the model from what
there was.  Only style lines that waited for the id before it was given go with it.

* `deleteNode_of_unconnected`: what the deletion of a node without edges comes to.
* `deletion_undoes_creation`: creating a node and deleting it is an undo.
-/

namespace Flowchart

open Edit

section Unconnected

variable {d : Diagram} {id : String}

/-- No edge line is at a node that all edges avoid. -/
theorem positionsAt_eq_nil
    (hd : d.IsReading)
    (havoids : ∀ edge ∈ d.model.edges, edge.avoids id = true) :
    positionsAt id d.lines = [] := by
  have hnone : ∀ rank : Nat, ¬(positionsAt id d.lines).contains (rank : Int) = true := by
    intro rank hrank
    obtain ⟨line, hline, htouches⟩ := contains_positionsAt_iff.mp hrank
    have hends : (line.source, line.target) ∈ d.model.edges.map Edge.ends := by
      rw [hd.reads.edges, Reading.map_ends_modelEdges]
      exact List.mem_map_of_mem (List.mem_of_getElem? hline)
    obtain ⟨edge, hedge, hsame⟩ := List.mem_map.mp hends
    obtain ⟨hsource, htarget⟩ := Prod.mk.inj hsame
    rw [← hsource, ← htarget, ← not_avoids, havoids edge hedge] at htouches
    cases htouches
  rw [List.eq_nil_iff_forall_not_mem]
  intro p hp
  obtain ⟨rank, rfl⟩ := Int.eq_ofNat_of_zero_le (nonneg_positionsAt id d.lines p hp)
  exact hnone rank (List.contains_iff_mem.mpr hp)

/-- The graph gives no edge at a node that all edges avoid. -/
theorem filter_edgesAt_eq_self
    {m : Model}
    (havoids : ∀ edge ∈ m.edges, edge.avoids id = true) :
    (m.edges.filter fun edge => !((Graph.ofModel m).edgesAt m id).contains edge.id) =
      m.edges := by
  rw [List.filter_eq_self]
  intro edge hedge
  rw [Graph.contains_edgesAt hedge, Bool.not_eq_true', List.any_eq_false]
  intro other hother
  rw [havoids other hother, Bool.not_true, Bool.false_and]
  exact Bool.false_ne_true

/-- The deletion of a node without edges takes its lines and the node itself. -/
theorem deleteNode_of_unconnected
    {m : Model}
    (hd : d.IsReading)
    (hdeclared : d.lines.any (declaresNode id) = true)
    (havoids : ∀ edge ∈ d.model.edges, edge.avoids id = true)
    (hmodel :
      rebuild (d.model.declared.filter (·.id != id)) d.model.edges
        (d.model.nodes.filter (·.id != id))
        (d.lines.filter fun line => !(declaresNode id line || stylesNode id line)) = .ok m) :
    Editor.deleteNode d id =
      .ok (.changed
        ⟨d.lines.filter fun line => !(declaresNode id line || stylesNode id line), m⟩ none) := by
  have howned :
      (d.lines.any fun line => declaresNode id line || stylesNode id line) = true := by
    obtain ⟨line, hline, hdeclares⟩ := List.any_eq_true.mp hdeclared
    exact List.any_eq_true.mpr ⟨line, hline, by rw [hdeclares, Bool.true_or]⟩
  have hpositions := positionsAt_eq_nil hd havoids
  have hdrop : LinkStyle.dropEdges d.lines [] = d.lines := LinkStyle.dropFrom_nil 0 d.lines
  unfold positionsAt at hpositions
  refine bind_eq_ok_iff.mpr ⟨(), checkReadable_eq_ok_iff.mpr hd.readable, ?_⟩
  dsimp only
  rw [howned, if_neg (by simp), hpositions, hdrop, filter_edgesAt_eq_self havoids,
    hd.areNumbered]
  exact bind_eq_ok_iff.mpr ⟨m, hmodel, rfl⟩

end Unconnected

/-- Of a line that is not kept nothing is left, wherever it was added. -/
theorem filter_append
    {keep : String → Bool} {line : String}
    (hline : keep line = false)
    (lines : List String) :
    (append lines line).filter keep = lines.filter keep := by
  obtain ⟨front, blanks, hlines, happend, _⟩ := append_eq lines line
  rw [happend, hlines, List.filter_append, List.filter_append,
    List.filter_cons_of_neg (by rw [hline]; exact Bool.false_ne_true)]

/-- What is filtered by an id that no member has stays as it is. -/
theorem filter_id_eq_self
    {nodes : List Node} {id : String}
    (h : id ∉ nodes.map (·.id)) :
    nodes.filter (·.id != id) = nodes := by
  rw [List.filter_eq_self]
  intro n hn
  rw [bne_iff_ne]
  exact fun hid => h (hid ▸ List.mem_map_of_mem hn)

/-- Without a new declared node the nodes are those that there were. -/
theorem filter_id_insert
    {m : Model} {n : Node}
    (hsplit : m.nodes = m.declared ++ m.nodes.filter (!·.declared))
    (hfresh : n.id ∉ m.nodeIds) :
    (m.declared ++ n :: m.nodes.filter (!·.declared)).filter (·.id != n.id) = m.nodes := by
  rw [List.filter_append, List.filter_cons_of_neg (by simp), ← List.filter_append, ← hsplit]
  exact filter_id_eq_self hfresh

section Creation

variable {d d' : Diagram} {text : String} {ref : ShapeRef} {given created : Option String}

theorem startLines_of_not_blank
    (e : Editor)
    (hd : Diagram.ofText text = .ok d)
    (hblank : ∃ line ∈ splitLines text, isBlankLine line = false) :
    e.startLines d = d.lines := by
  obtain ⟨line, hline, hwritten⟩ := hblank
  rw [← (ofText_eq_ok_iff.mp hd).1] at hline
  have hempty : d.isEmpty = false := by
    unfold Diagram.isEmpty
    rw [List.all_eq_false]
    exact ⟨line, hline, by rw [hwritten]; exact Bool.false_ne_true⟩
  unfold Editor.startLines
  rw [hempty]
  rfl

/-- No edge is at an id that no node has. -/
theorem avoids_of_not_mem_nodeIds
    {id : String}
    (hd : d.IsReading)
    (hfresh : id ∉ d.model.nodeIds) :
    ∀ edge ∈ d.model.edges, edge.avoids id = true := by
  have hends : ∀ end' ∈ endpoints d.model.edges, end' ≠ id := by
    rintro end' hend rfl
    exact hfresh (hd.reads.mem_nodeIds.mpr (Or.inr hend))
  intro edge hedge
  exact avoids_eq_true_iff.mpr
    ⟨hends _ (mem_endpoints.mpr ⟨edge, hedge, Or.inl rfl⟩),
      hends _ (mem_endpoints.mpr ⟨edge, hedge, Or.inr rfl⟩)⟩

/-- Of the lines after a creation, those that are not of the new node were there before. -/
theorem filter_created
    {lines : List String} {line id body : String}
    (hkind : Line.classify line = .node id body)
    (hfresh : id ∉ (Reading.declarations (lines.map Line.classify)).map (·.id)) :
    ((append lines line).filter fun other => !(declaresNode id other || stylesNode id other)) =
      lines.filter (!stylesNode id ·) := by
  rw [filter_append (by rw [isOf_classify, hkind]; simp [Line.isOf])]
  apply List.filter_congr
  intro other hother
  have hnot : declaresNode id other = false := by
    rw [← Bool.not_eq_true, declaresNode_eq_true_iff]
    rintro ⟨otherBody, hotherKind⟩
    exact hfresh (List.mem_map.mpr
      ⟨_, mem_declarations_iff.mpr ⟨other, hother, _, otherBody, hotherKind, rfl⟩, rfl⟩)
  rw [hnot, Bool.false_or]

/--
Creating a node and deleting it is an undo.  In a text where something is written,
a created node can be deleted; the lines are then those there were, without the
style lines that waited for the new id, and the model is the one there was.
-/
theorem deletion_undoes_creation
    (hd : Diagram.ofText text = .ok d)
    (hblank : ∃ line ∈ splitLines text, isBlankLine line = false)
    (h : ({} : Editor).apply d (.createNode ref given) = .ok (.changed d' created)) :
    ∃ id,
      created = some id ∧
      ({} : Editor).apply d' (.deleteNode id) =
        .ok (.changed ⟨d.lines.filter (!stylesNode id ·), d.model⟩ none) ∧
      ((∀ line ∈ d.lines, stylesNode id line = false) →
        ({} : Editor).apply d' (.deleteNode id) = .ok (.changed d none)) := by
  have hreading := isReading_of_ofText hd
  obtain ⟨_, id, body, line, _, hid, _, _, hkind, _, hlines, _, hcreated⟩ :=
    createNode_spec Editor.writesLines_default h
  obtain ⟨hreading', _, hedges, n, _, hnodes, _, hfresh, hcreated', _⟩ :=
    createNode_reads_back Editor.writesLines_default hreading h
  obtain rfl : id = n.id := Option.some.inj (hcreated.symm.trans hcreated')
  have hundeclared := next_not_mem_declarations Editor.writesLines_default d
  rw [startLines_of_not_blank _ hd hblank] at hlines hid hundeclared
  rw [← hid] at hundeclared
  have hdeclared : d'.lines.any (declaresNode n.id) = true :=
    List.any_eq_true.mpr
      ⟨line, by rw [hlines]; exact mem_append_iff.mpr (Or.inl rfl),
        declaresNode_eq_true_iff.mpr ⟨body, hkind⟩⟩
  have havoids : ∀ edge ∈ d'.model.edges, edge.avoids n.id = true := by
    rw [hedges]
    exact avoids_of_not_mem_nodeIds hreading hfresh
  have hleft :
      (d'.lines.filter fun line => !(declaresNode n.id line || stylesNode n.id line)) =
        d.lines.filter (!stylesNode n.id ·) := by
    rw [hlines]
    exact filter_created hkind hundeclared
  have hkept : d'.model.nodes.filter (·.id != n.id) = d.model.nodes := by
    rw [hnodes]
    exact filter_id_insert hreading.reads.declared_eq.2.2 hfresh
  have hkeptDeclared : d'.model.declared.filter (·.id != n.id) = d.model.declared := by
    unfold Model.declared
    rw [List.filter_comm, hkept]
  have hdelete :
      ({} : Editor).apply d' (.deleteNode n.id) =
        .ok (.changed ⟨d.lines.filter (!stylesNode n.id ·), d.model⟩ none) := by
    rw [← hleft]
    refine deleteNode_of_unconnected hreading' hdeclared havoids ?_
    rw [hkept, hkeptDeclared, hedges]
    exact rebuild_self hreading.reads.completeNodes_self _
  refine ⟨n.id, hcreated, hdelete, ?_⟩
  intro hnone
  have hall : d.lines.filter (!stylesNode n.id ·) = d.lines := by
    rw [List.filter_eq_self]
    intro other hother
    rw [hnone other hother]
    rfl
  rw [hdelete, hall]

/--
The style line that waited for the id goes with the node.  Edges of the same ends, their
placeholders, a link style without an edge and the blank lines at the end stay.
-/
theorem deletion_undoes_creation_of_styled_id :
    ∃ d d' : Diagram,
      Diagram.ofText
        "A --> B\nstyle node1 fill:#ff0000\nA --> B\nlinkStyle 9 color:#00ff00\n \n" = .ok d ∧
      d.isEmpty = false ∧
      ({} : Editor).apply d (.createNode (.known .rectangle) (some "x")) =
        .ok (.changed d' (some "node1")) ∧
      d'.lines =
        [ "A --> B", "style node1 fill:#ff0000", "A --> B", "linkStyle 9 color:#00ff00",
          "    node1[x]", " ", "" ] ∧
      d'.model.nodeIds = "node1" :: d.model.nodeIds ∧
      ({} : Editor).apply d' (.deleteNode "node1") =
        .ok (.changed
          ⟨["A --> B", "A --> B", "linkStyle 9 color:#00ff00", " ", ""], d.model⟩ none) := by
  have hd :
      Diagram.ofText
          "A --> B\nstyle node1 fill:#ff0000\nA --> B\nlinkStyle 9 color:#00ff00\n \n" =
        .ok {
          lines := [
            "A --> B", "style node1 fill:#ff0000", "A --> B", "linkStyle 9 color:#00ff00", " ",
            ""]
          model := {
            nodes := [placeholder "A", placeholder "B"]
            edges := [
              { id := "edge_A_B", source := "A", target := "B" },
              { id := "edge_A_B_1", source := "A", target := "B" }] } } := by
    rfl
  have h :
      ({} : Editor).apply {
          lines := [
            "A --> B", "style node1 fill:#ff0000", "A --> B", "linkStyle 9 color:#00ff00", " ",
            ""]
          model := {
            nodes := [placeholder "A", placeholder "B"]
            edges := [
              { id := "edge_A_B", source := "A", target := "B" },
              { id := "edge_A_B_1", source := "A", target := "B" }] } }
          (.createNode (.known .rectangle) (some "x")) =
        .ok (.changed {
          lines := [
            "A --> B", "style node1 fill:#ff0000", "A --> B", "linkStyle 9 color:#00ff00",
            "    node1[x]", " ", ""]
          model := {
            nodes := [
              { id := "node1", label := "x", style := { backgroundColor := ⟨"#ff0000", rfl⟩ } },
              placeholder "A", placeholder "B"]
            edges := [
              { id := "edge_A_B", source := "A", target := "B" },
              { id := "edge_A_B_1", source := "A", target := "B" }] } } (some "node1")) := by
    rfl
  obtain ⟨id, hid, hdelete, _⟩ :=
    deletion_undoes_creation hd ⟨"A --> B", by decide +kernel, by decide +kernel⟩ h
  obtain rfl := Option.some.inj hid
  exact ⟨_, _, hd, by decide +kernel, h, rfl, rfl, hdelete⟩

end Creation

end Flowchart
