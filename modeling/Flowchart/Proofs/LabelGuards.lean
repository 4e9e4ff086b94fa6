import Flowchart.Proofs.Idempotence
import Flowchart.Proofs.UntargetedLines

/-!
# Labels that can be written

An edit that would write a label first reads the line back that it would write, and
is refused if that line says something else.  These checks refuse no label that some
line says.

For nodes this is so because the node line declares the node if any line does.  For
edges without brackets at their ends the label stands between two bars, and up to the
second bar nothing in it is read as anything else.

* `edgeReadsBack_lineOf`: which labels can be written on edge lines.
* `node_label_guard_exact`: what becomes of an edit that writes a node line.
* `edge_label_guard_exact`: what becomes of another label for an edge.
-/

namespace Flowchart

open Edit Text

/-- The node of an edit that gives a node a label and a shape: its id, the shape, and the label. -/
def Edit.declared? (e : Editor) (d : Diagram) : Edit → Option (String × Shape × String)
  | .createNode (.known shape) given =>
      some (NodeId.next (e.startLines d) e.stem, shape, given.getD e.label)
  | .updateNode id label (.known shape) _ => some (id, shape, label)
  | _ => none

theorem Edit.declared?_eq_some
    {e : Editor} {d : Diagram} {edit : Edit} {id label : String} {shape : Shape}
    (h : edit.declared? e d = some (id, shape, label)) :
    (∃ given, edit = .createNode (.known shape) given ∧
        id = NodeId.next (e.startLines d) e.stem ∧ label = given.getD e.label) ∨
      ∃ style, edit = .updateNode id label (.known shape) style := by
  unfold declared? at h
  split at h
  · rename_i known given
    rw [Option.some.injEq, Prod.mk.injEq, Prod.mk.injEq] at h
    obtain ⟨hid, rfl, hlabel⟩ := h
    exact Or.inl ⟨given, rfl, hid.symm, hlabel.symm⟩
  · rename_i style
    rw [Option.some.injEq, Prod.mk.injEq, Prod.mk.injEq] at h
    obtain ⟨rfl, rfl, rfl⟩ := h
    exact Or.inr ⟨style, rfl⟩
  · cases h

section NodeEdits

variable {e : Editor} {d d' : Diagram} {id label : String} {shape : Shape} {style : NodeStyle}
  {given created : Option String} {problem : Problem}

theorem createNode_eq_refused
    (h : e.createNode d (.known shape) given = .ok (.refused problem)) :
    nodeReadsBack (NodeId.next (e.startLines d) e.stem) shape (given.getD e.label) =
      .ok false := by
  unfold Editor.createNode at h
  obtain ⟨_, hshape, h⟩ := bind_eq_ok_iff.mp h
  cases hshape
  obtain ⟨_, _, h⟩ := bind_eq_ok_iff.mp h
  obtain ⟨readsBack, hreads, h⟩ := bind_eq_ok_iff.mp h
  cases readsBack with
  | true =>
      obtain ⟨_, _, h⟩ := bind_eq_ok_iff.mp h
      cases h
  | false =>
      exact hreads

/-- An update of a node is refused if there is no such node, or for its label. -/
theorem updateNode_eq_refused
    (h : e.updateNode d id label (.known shape) style = .ok (.refused problem)) :
    problem = .noNodeLine id ∨ nodeReadsBack id shape label = .ok false := by
  unfold Editor.updateNode at h
  obtain ⟨_, hshape, h⟩ := bind_eq_ok_iff.mp h
  cases hshape
  obtain ⟨_, _, h⟩ := bind_eq_ok_iff.mp h
  dsimp only at h
  split at h
  · cases h
    exact Or.inl rfl
  · split at h
    · obtain ⟨readsBack, hreads, h⟩ := bind_eq_ok_iff.mp h
      cases readsBack with
      | true =>
          obtain ⟨_, _, h⟩ := bind_eq_ok_iff.mp h
          obtain ⟨_, _, h⟩ := bind_eq_ok_iff.mp h
          cases h
      | false =>
          exact Or.inr hreads
    · obtain ⟨_, hreads, h⟩ := bind_eq_ok_iff.mp h
      cases hreads
      obtain ⟨_, _, h⟩ := bind_eq_ok_iff.mp h
      obtain ⟨_, _, h⟩ := bind_eq_ok_iff.mp h
      cases h

theorem indentOf_blank
    (line : String) :
    ∀ c ∈ (indentOf line).toList, isBlank c = true := by
  intro c hc
  rw [indentOf, String.toList_ofList] at hc
  exact of_mem_takeWhile hc

/-- A node line written anew declares the node as it is given. -/
theorem declares_freshLine
    {line : String}
    (hdeclares : declaresNode id line = true)
    (hread : isStale id label shape line = true → nodeReadsBack id shape label = .ok true) :
    Line.Declares id shape label (freshLine id label shape line) := by
  unfold freshLine
  split
  · rename_i hstale
    obtain ⟨_, other, hother⟩ := nodeReadsBack_eq_true_iff.mp (hread hstale)
    exact hother.lineOf (indentOf_blank line)
  · rename_i hstale
    rw [isStale, hdeclares, Bool.true_and, Bool.not_eq_true', Bool.not_eq_false] at hstale
    exact declares_iff.mpr ⟨hdeclares, hstale⟩

/-- The lines that declare a node anew: old ones, and at least one that declares it as given. -/
theorem declares_written
    {lines : List String} {indent : String}
    (hindent : ∀ c ∈ indent.toList, isBlank c = true)
    (hread :
      lines.any (isStale id label shape) = true ∨ lines.any (declaresNode id) = false →
        nodeReadsBack id shape label = .ok true) :
    let written :=
      if lines.any (declaresNode id) then lines.map (freshLine id label shape)
      else append (lines.map (freshLine id label shape)) (Node.lineOf indent id shape label)
    (∃ line ∈ written, Line.Declares id shape label line) ∧
      ∀ line ∈ written, line ∈ lines ∨ Line.Declares id shape label line := by
  cases hdeclared : lines.any (declaresNode id) with
  | true =>
      have hfresh :
          ∀ line ∈ lines, declaresNode id line = true →
            Line.Declares id shape label (freshLine id label shape line) := by
        intro line hline hdeclares
        exact declares_freshLine hdeclares fun hstale =>
          hread (Or.inl (List.any_eq_true.mpr ⟨line, hline, hstale⟩))
      obtain ⟨line, hline, hdeclares⟩ := List.any_eq_true.mp hdeclared
      refine ⟨⟨_, List.mem_map_of_mem hline, hfresh line hline hdeclares⟩, ?_⟩
      intro new hnew
      obtain ⟨old, hold, rfl⟩ := List.mem_map.mp hnew
      cases hdeclares : declaresNode id old with
      | true =>
          exact Or.inr (hfresh old hold hdeclares)
      | false =>
          have hsame : freshLine id label shape old = old := by
            simp [freshLine, isStale, hdeclares]
          rw [hsame]
          exact Or.inl hold
  | false =>
      obtain ⟨_, other, hother⟩ := nodeReadsBack_eq_true_iff.mp (hread (Or.inr hdeclared))
      have hdeclares := hother.lineOf hindent
      rw [map_freshLine_of_not_declared hdeclared]
      refine ⟨⟨_, mem_append_iff.mpr (Or.inl rfl), hdeclares⟩, ?_⟩
      intro line hline
      rcases mem_append_iff.mp hline with rfl | hline
      · exact Or.inr hdeclares
      · exact Or.inl hline

/-- Writing the style of a node adds no lines but one that gives it. -/
theorem mem_writeNodeStyle
    {lines lines' : List String} {line : String}
    (hindent : ∀ c ∈ e.indent.toList, isBlank c = true)
    (h : e.writeNodeStyle lines id style = .ok lines')
    (hline : line ∈ lines') :
    line ∈ lines ∨
      ∃ indent, (∀ c ∈ indent.toList, isBlank c = true) ∧ line = style.write id indent := by
  rcases (writeNodeStyle_cases h).2 with ⟨rfl, _⟩ | ⟨before, first, rest, rfl, _, _, rfl⟩ |
    ⟨_, rfl⟩
  · exact Or.inl hline
  · rcases List.mem_append.mp hline with hline | hline
    · exact Or.inl (List.mem_append_left _ hline)
    · rcases List.mem_cons.mp hline with rfl | hline
      · exact Or.inr ⟨_, indentOf_blank first, rfl⟩
      · exact Or.inl
          (List.mem_append_right _ (List.mem_cons_of_mem _ (List.mem_of_mem_filter hline)))
  · rcases mem_append_iff.mp hline with rfl | hline
    · exact Or.inr ⟨_, hindent, rfl⟩
    · exact Or.inl hline

/-- The lines of a creation: the new one declares the node, and the others stood there. -/
theorem createNode_writes
    (hindent : ∀ c ∈ e.indent.toList, isBlank c = true)
    (h : e.createNode d (.known shape) given = .ok (.changed d' created)) :
    let id := NodeId.next (e.startLines d) e.stem
    (∃ line ∈ d'.lines, Line.Declares id shape (given.getD e.label) line) ∧
      ∀ line ∈ d'.lines,
        line ∈ d.lines ∨ d.isEmpty = true ∧ line = e.header ∨
          Line.Declares id shape (given.getD e.label) line := by
  obtain ⟨_, _, hshape, rfl, _, hread, hlines, _, _⟩ := createNode_eq_changed h
  cases hshape
  obtain ⟨_, other, hother⟩ := nodeReadsBack_eq_true_iff.mp hread
  have hdeclares := hother.lineOf hindent
  rw [hlines]
  refine ⟨⟨_, mem_append_iff.mpr (Or.inl rfl), hdeclares⟩, ?_⟩
  intro line hline
  rcases mem_append_iff.mp hline with rfl | hline
  · exact Or.inr (Or.inr hdeclares)
  · unfold Editor.startLines at hline
    split at hline
    · rename_i hempty
      exact Or.inr (Or.inl ⟨hempty, List.mem_singleton.mp hline⟩)
    · exact Or.inl hline

/--
The lines of an update: old ones, ones that declare the node, and one for its style.
A line that declares a node gives no style, so it is not among those that are replaced.
-/
theorem updateNode_writes
    (hindent : ∀ c ∈ e.indent.toList, isBlank c = true)
    (h : e.updateNode d id label (.known shape) style = .ok (.changed d' created)) :
    (∃ line ∈ d'.lines, Line.Declares id shape label line) ∧
      ∀ line ∈ d'.lines,
        line ∈ d.lines ∨ Line.Declares id shape label line ∨
          Line.classify line = .style id style.properties := by
  obtain ⟨_, written, hshape, _, _, hread, hwritten, hstyled, _⟩ := updateNode_eq_changed h
  cases hshape
  obtain ⟨⟨line, hline, hdeclares⟩, hothers⟩ := declares_written hindent hread
  rw [← hwritten] at hline hothers
  have hid := hdeclares.core_spec.1
  constructor
  · have hkept : line ∈ written.filter (!stylesNode id ·) := by
      rw [List.mem_filter, hdeclares.stylesNode_eq_false id]
      exact ⟨hline, rfl⟩
    exact ⟨line, (writeNodeStyle_keeps hstyled).subset hkept, hdeclares⟩
  · intro other hother
    rcases mem_writeNodeStyle hindent hstyled hother with hother | ⟨indent, hblank, rfl⟩
    · exact (hothers other hother).imp_right Or.inl
    · exact Or.inr (Or.inr (NodeStyle.classify_write hid style hblank))

/-- An edit that is refused for its shape has a label that is not read back. -/
theorem nodeReadsBack_of_refused
    {edit : Edit}
    (hdeclared : edit.declared? e d = some (id, shape, label))
    (hkind : problem.kind = .unrecognizedShape)
    (h : e.apply d edit = .ok (.refused problem)) :
    nodeReadsBack id shape label = .ok false := by
  rcases declared?_eq_some hdeclared with ⟨given, rfl, rfl, rfl⟩ | ⟨style, rfl⟩
  · exact createNode_eq_refused h
  · rcases updateNode_eq_refused h with rfl | hread
    · cases hkind
    · exact hread

/-- The lines of an edit that gives a node a label and a shape. -/
theorem apply_writes
    {edit : Edit}
    (hindent : ∀ c ∈ e.indent.toList, isBlank c = true)
    (hdeclared : edit.declared? e d = some (id, shape, label))
    (h : e.apply d edit = .ok (.changed d' created)) :
    (∃ line ∈ d'.lines, Line.Declares id shape label line) ∧
      ∀ line ∈ d'.lines,
        line ∈ d.lines ∨ d.isEmpty = true ∧ line = e.header ∨
          Line.Declares id shape label line ∨
          ∃ style, edit = .updateNode id label (.known shape) style ∧
            Line.classify line = .style id style.properties := by
  rcases declared?_eq_some hdeclared with ⟨given, rfl, rfl, rfl⟩ | ⟨style, rfl⟩
  · obtain ⟨hsome, hall⟩ := createNode_writes hindent h
    refine ⟨hsome, fun line hline => ?_⟩
    rcases hall line hline with hold | hheader | hnew
    · exact Or.inl hold
    · exact Or.inr (Or.inl hheader)
    · exact Or.inr (Or.inr (Or.inl hnew))
  · obtain ⟨hsome, hall⟩ := updateNode_writes hindent h
    refine ⟨hsome, fun line hline => ?_⟩
    rcases hall line hline with hold | hnew | hstyle
    · exact Or.inl hold
    · exact Or.inr (Or.inr (Or.inl hnew))
    · exact Or.inr (Or.inr (Or.inr ⟨style, rfl, hstyle⟩))

end NodeEdits

/--
The check of node labels is exact.  For an id of word characters it can always be told
whether the node line of a shape and a label is read back, and it is so exactly if any
line at all declares that node, where the label breaks no line.  So an edit that gives a
node a shape and a label is refused for the label, and leaves the diagram as it is, only
if no line could say it; and every line that it writes declares this very node, except
for the header of a blank text and the line that gives the node its style.
-/
theorem node_label_guard_exact
    {e : Editor}
    (hindent : ∀ c ∈ e.indent.toList, isBlank c = true) :
    (∀ (id : String) (shape : Shape) (label : String),
      (∀ c ∈ id.toList, isWord c = true) → '\n' ∉ label.toList → '\r' ∉ label.toList →
        ∃ readsBack, nodeReadsBack id shape label = .ok readsBack ∧
          (readsBack = true ↔ ∃ line, Line.Declares id shape label line)) ∧
    ∀ (d : Diagram) (edit : Edit) (id : String) (shape : Shape) (label : String)
        (outcome : Outcome),
      edit.declared? e d = some (id, shape, label) →
      e.apply d edit = .ok outcome →
        (∀ problem, outcome = .refused problem → problem.kind = .unrecognizedShape →
          outcome.after d = d ∧
            ('\n' ∉ label.toList → '\r' ∉ label.toList →
              ¬∃ line, Line.Declares id shape label line)) ∧
        ∀ d' created, outcome = .changed d' created →
          (∃ line ∈ d'.lines, Line.Declares id shape label line) ∧
          ∀ line ∈ d'.lines,
            line ∈ d.lines ∨ d.isEmpty = true ∧ line = e.header ∨
              Line.Declares id shape label line ∨
              ∃ style, edit = .updateNode id label (.known shape) style ∧
                Line.classify line = .style id style.properties := by
  refine ⟨fun id shape label hid hfeed hreturn => ?_,
    fun d edit id shape label outcome hdeclared h => ⟨?_, ?_⟩⟩
  · obtain ⟨readsBack, hread, hiff⟩ := nodeReadsBack_spec hid shape label
    have hline := breaksLine_eq_false_iff.mpr ⟨hfeed, hreturn⟩
    exact ⟨readsBack, hread, hiff.trans (and_iff_right hline)⟩
  · rintro problem rfl hkind
    have hread := nodeReadsBack_of_refused hdeclared hkind h
    refine ⟨rfl, fun hfeed hreturn hsome => ?_⟩
    have hback :=
      nodeReadsBack_eq_true_iff.mpr ⟨breaksLine_eq_false_iff.mpr ⟨hfeed, hreturn⟩, hsome⟩
    rw [hread] at hback
    cases hback
  · rintro d' created rfl
    exact apply_writes hindent hdeclared h

/--
A label that closes the brackets before its arrow is refused, and one that does not is
written, for a new node as for one that there is.
-/
theorem node_label_guard_exact_of_arrows :
    let d : Diagram := {
      lines := ["A[y]"]
      model := { nodes := [{ id := "A", label := "y", shape := Shape.rectangle }] } }
    let problem : Problem := .unwritableNodeLabel "] --> B[y" .rectangle
    (∀ c ∈ ({} : Editor).indent.toList, isBlank c = true) ∧
      Line.classify "A[] --> B[y]" = .edge ⟨"A", "B", none, "A[]", "B[y]"⟩ ∧
      ({} : Editor).apply d (.updateNode "A" "] --> B[y" (.known .rectangle) {}) =
        .ok (.refused problem) ∧
      problem.kind = .unrecognizedShape ∧
      (¬∃ line, Line.Declares "A" .rectangle "] --> B[y" line) ∧
      (∃ d',
        ({} : Editor).apply d (.updateNode "A" "--> B[y" (.known .rectangle) {}) =
          .ok (.changed d' none) ∧
        d'.lines = ["A[--> B[y]"] ∧
        ∃ line ∈ d'.lines, Line.Declares "A" .rectangle "--> B[y" line) ∧
      ({} : Editor).apply d (.createNode (.known .rectangle) (some "] --> B[y")) =
        .ok (.refused problem) ∧
      (¬∃ line, Line.Declares "node1" .rectangle "] --> B[y" line) ∧
      ∃ d',
        ({} : Editor).apply d (.createNode (.known .rectangle) (some "--> B[y")) =
          .ok (.changed d' (some "node1")) ∧
        d'.lines = ["A[y]", "    node1[--> B[y]"] ∧
        ∃ line ∈ d'.lines, Line.Declares "node1" .rectangle "--> B[y" line := by
  intro d problem
  have hindent := isIndent_default.blank
  have hrefused :
      ({} : Editor).apply d (.updateNode "A" "] --> B[y" (.known .rectangle) {}) =
        .ok (.refused problem) := by
    rfl
  have hchanged :
      ({} : Editor).apply d (.updateNode "A" "--> B[y" (.known .rectangle) {}) =
        .ok (.changed {
          lines := ["A[--> B[y]"]
          model := { nodes := [{ id := "A", label := "--> B[y", shape := Shape.rectangle }] } }
          none) := by
    rfl
  have hid : NodeId.next (({} : Editor).startLines d) "node" = "node1" := by
    decide +kernel
  have hreadable : IsReadable (({} : Editor).startLines d) :=
    checkReadable_eq_ok_iff.mp rfl
  have hnotCreated :
      ({} : Editor).apply d (.createNode (.known .rectangle) (some "] --> B[y")) =
        .ok (.refused problem) := by
    have hback :
        nodeReadsBack (NodeId.next (({} : Editor).startLines d) "node") .rectangle
            "] --> B[y" =
          .ok false := by
      rw [hid]
      rfl
    exact @createNode_of_readsBack {} d .rectangle (some "] --> B[y") false hreadable hback
  have hcreated :
      ({} : Editor).apply d (.createNode (.known .rectangle) (some "--> B[y")) =
        .ok (.changed {
          lines := ["A[y]", "    node1[--> B[y]"]
          model := {
            nodes := [
              { id := "A", label := "y", shape := Shape.rectangle },
              { id := "node1", label := "--> B[y", shape := Shape.rectangle }] } }
          (some "node1")) := by
    have hback :
        nodeReadsBack (NodeId.next (({} : Editor).startLines d) "node") .rectangle
            "--> B[y" =
          .ok true := by
      rw [hid]
      rfl
    have hcreates :=
      @createNode_of_readsBack {} d .rectangle (some "--> B[y") true hreadable hback
    refine hcreates.trans ?_
    dsimp only
    rw [hid]
    rfl
  obtain ⟨_, hedits⟩ := @node_label_guard_exact {} hindent
  have hnone := ((hedits d _ _ _ _ _ rfl hrefused).1 problem rfl rfl).2 (by decide) (by decide)
  have hsome := ((hedits d _ _ _ _ _ rfl hchanged).2 _ _ rfl).1
  have hdeclared :
      ∀ given,
        (Edit.createNode (.known .rectangle) (some given)).declared? {} d =
          some ("node1", .rectangle, given) :=
    fun given => congrArg (fun id => some (id, Shape.rectangle, given)) hid
  have hnoNew :=
    ((hedits d _ _ _ _ _ (hdeclared _) hnotCreated).1 problem rfl rfl).2 (by decide) (by decide)
  have hnew := ((hedits d _ _ _ _ _ (hdeclared _) hcreated).2 _ _ rfl).1
  exact ⟨hindent, by decide +kernel, hrefused, rfl, hnone, ⟨_, hchanged, rfl, hsome⟩,
    hnotCreated, hnoNew, _, hcreated, rfl, hnew⟩

/-- An edge line without brackets at its ends. -/
def EdgeLine.IsBare (e : EdgeLine) : Prop :=
  e.sourceText = e.source ∧ e.targetText = e.target

/-- A label with a bar or a line break, which ends the label or the line. -/
def Edge.IsUnwritable (label : String) : Prop :=
  '|' ∈ label.toList ∨ '\n' ∈ label.toList ∨ '\r' ∈ label.toList

instance (label : String) : Decidable (Edge.IsUnwritable label) :=
  inferInstanceAs (Decidable (_ ∨ _ ∨ _))

/-- A line between bare ends is read back with a label exactly if no bar and no break is in it. -/
theorem edgeReadsBack_lineOf
    {indent source target label : String}
    (hindent : ∀ c ∈ indent.toList, isBlank c = true)
    (hsource : isIdentifier source.toList = true)
    (htarget : isIdentifier target.toList = true) :
    edgeReadsBack (Edge.lineOf indent source target label) source target label = true ↔
      ¬Edge.IsUnwritable label := by
  rw [Edge.IsUnwritable, not_or, not_or, ← breaksLine_eq_false_iff]
  constructor
  · intro h
    have hbreaks := (Bool.and_eq_true_iff.mp h).1
    obtain ⟨_, line, hkind, _, _, hlabel⟩ := edgeReadsBack_eq_true h
    obtain ⟨_, _, _, _, hbars⟩ := parts_of_classify_edge hkind
    refine ⟨?_, by simpa using hbreaks⟩
    cases hwritten : line.label with
    | none =>
        rw [hwritten] at hlabel
        simp [← hlabel]
    | some text =>
        rw [hwritten] at hlabel
        rw [← hlabel]
        exact (hbars text hwritten).1
  · rintro ⟨hbar, hbreaks⟩
    unfold edgeReadsBack
    rw [hbreaks, classify_edgeLine hindent hsource htarget hbar]
    simp [Edge.getD_writtenLabel]

/-- An edge line between bare ends is written anew as the edge line of its edge. -/
theorem relabelled_of_bare
    {old label : String} {line : EdgeLine}
    (hbare : line.IsBare)
    (hlabel : line.label.getD "" ≠ label) :
    relabelled old line label = Edge.lineOf (indentOf old) line.source line.target label := by
  unfold relabelled
  rw [if_neg (by simpa using hlabel), hbare.1, hbare.2]

section EdgeLabels

variable {e : Editor} {d d' : Diagram} {label : String} {position : Nat} {edge : Edge}
  {l : EdgePlace} {style : EdgeStyle} {created : Option String}
  (hd : d.IsReading)
  (hedge : d.model.edges[position]? = some edge)
  (hfirst : d.model.edgeIndex? edge.id = some position)
  (hl : (EdgePlace.all d.lines)[position]? = some l)
  (hbare : l.line.IsBare)
  (hlabel : label ≠ edge.label)

include hd hedge hfirst hl hbare hlabel

/-- The line of an edge between bare ends, and the update that gives it another label. -/
theorem updateEdge_of_bare :
    ∃ front old back,
      d.lines = front ++ old :: back ∧
      Line.classify old = .edge l.line ∧
      (Line.edges (front.map Line.classify)).length = position ∧
      ∀ style,
        e.updateEdge d edge.id label style =
          if Edge.IsUnwritable label then
            .ok (.refused (.unwritableEdgeLabel label))
          else do
            let lines ←
              LinkStyle.replace
                (front ++ Edge.lineOf (indentOf old) edge.source edge.target label :: back)
                position (style.write position e.indent)
            let edges := d.model.edges.map fun other =>
              if other.id == edge.id then { edge with label, style } else other
            return .changed { lines, model := { d.model with edges } } none := by
  have hreadable := (isLegible_of_isReading hd).readable
  have hfound := edge?_of_edgeIndex? hfirst hedge
  obtain ⟨hsourceId, htargetId, _⟩ :=
    hd.reads.parts_of_edge hd.oneLine (List.mem_of_getElem? hedge)
  rw [hd.reads.edges] at hedge
  have hfind := find?_of_modelEdges hedge hl
  obtain ⟨hposition, same, hsame, _, hsource, htarget, hwritten⟩ := getElem?_edgePlaces hl
  rw [hedge] at hsame
  cases hsame
  obtain ⟨front, old, back, hsplit, _, hold, hfront, hget, hset, _⟩ :=
    exists_append_of_find? hfind
  refine ⟨front, old, back, hsplit, hold, hfront.trans hposition, fun style => ?_⟩
  have hnot : l.line.label.getD "" ≠ label := by
    rw [← hwritten]
    exact hlabel.symm
  have hnew := @relabelled_of_bare old _ _ hbare hnot
  have hreads :=
    @edgeReadsBack_lineOf _ _ _ label (indentOf_blank old) hsourceId htargetId
  have hupdate := @updateEdge_of_find? e d _ label _ _ hreadable hfound hfind style
  rw [hget] at hupdate
  dsimp only at hupdate
  rw [hnew, ← hsource, ← htarget, hset, hposition, beq_eq_false_iff_ne.mpr hnot] at hupdate
  rw [hupdate]
  by_cases hunwritable : Edge.IsUnwritable label
  · have hrefused := Bool.eq_false_iff.mpr fun h => hreads.mp h hunwritable
    rw [if_pos hunwritable, hrefused]
    rfl
  · rw [if_neg hunwritable, hreads.mpr hunwritable]
    rfl

/-- Such an update is refused for nothing but a label that cannot stand between bars. -/
theorem updateEdge_of_bare_eq_refused_iff
    {problem : Problem} :
    e.updateEdge d edge.id label style = .ok (.refused problem) ↔
      problem = .unwritableEdgeLabel label ∧ Edge.IsUnwritable label := by
  obtain ⟨_, _, _, _, _, _, hupdate⟩ :=
    @updateEdge_of_bare e _ _ _ _ _ hd hedge hfirst hl hbare hlabel
  rw [hupdate]
  constructor
  · intro h
    split at h
    · rename_i hunwritable
      cases h
      exact ⟨rfl, hunwritable⟩
    · obtain ⟨_, _, h⟩ := bind_eq_ok_iff.mp h
      cases h
  · rintro ⟨rfl, hunwritable⟩
    exact if_pos hunwritable

/-- Such an update writes the label between two bars, on the line of the edge. -/
theorem updateEdge_of_bare_writes
    (h : e.updateEdge d edge.id label style = .ok (.changed d' created)) :
    created = none ∧
      ∃ l', (EdgePlace.all d'.lines)[position]? = some l' ∧
        l'.line = ⟨edge.source, edge.target, Edge.writtenLabel label, edge.source, edge.target⟩ ∧
        ∃ indent, (∀ c ∈ indent.toList, isBlank c = true) ∧
          d'.lines[l'.lineNumber]? =
            some (Edge.lineOf indent edge.source edge.target label) := by
  obtain ⟨front, old, back, _, _, hfront, hupdate⟩ :=
    @updateEdge_of_bare e _ _ _ _ _ hd hedge hfirst hl hbare hlabel
  obtain ⟨hsource, htarget, _⟩ :=
    hd.reads.parts_of_edge hd.oneLine (List.mem_of_getElem? hedge)
  rw [hupdate] at h
  split at h
  · cases h
  · rename_i hwritable
    obtain ⟨lines, hlines, h⟩ := bind_eq_ok_iff.mp h
    cases h
    have hkind :=
      classify_edgeLine (indentOf_blank old) hsource htarget fun hbar => hwritable (Or.inl hbar)
    obtain ⟨_, _, rfl⟩ := LinkStyle.replace_eq_ok hkind hfront hlines
    obtain ⟨l', hl', hnumber, hline⟩ :=
      getElem?_edgePlaces_append hkind (front.filter (LinkStyle.keeps position))
        (style.write position e.indent :: back.filter (LinkStyle.keeps position))
    rw [LinkStyle.edges_filter_keeps, hfront] at hl'
    refine ⟨rfl, l', hl', hline, _, indentOf_blank old, ?_⟩
    rw [hnumber, LinkStyle.rewritten, List.getElem?_append_right (Nat.le_refl _), Nat.sub_self]
    rfl

end EdgeLabels

/--
The check of edge labels is exact for edges without brackets at their ends.  An update
that gives the first edge of an id another label is refused as malformed exactly if a bar
or a line break is in the label.  Any other label is written on the line of the edge and
read back as it is, with the style, and nothing else changes; only a rank that is too
large a number, in a text of more lines than such a number counts, ends in a fault.
-/
theorem edge_label_guard_exact
    {e : Editor} {text label : String} {d : Diagram} {position : Nat} {edge : Edge}
    {l : EdgePlace}
    (he : IsIndent e.indent)
    (hd : Diagram.ofText text = .ok d)
    (hedge : d.model.edges[position]? = some edge)
    (hfirst : d.model.edgeIndex? edge.id = some position)
    (hl : (EdgePlace.all d.lines)[position]? = some l)
    (hbare : l.line.IsBare)
    (hlabel : label ≠ edge.label)
    (style : EdgeStyle) :
    ((∃ problem,
        e.apply d (.updateEdge edge.id label style) = .ok (.refused problem) ∧
          problem.kind = .malformedEdge) ↔
      Edge.IsUnwritable label) ∧
    (¬Edge.IsUnwritable label →
      (∃ d' r l',
        e.apply d (.updateEdge edge.id label style) = .ok (.changed d' none) ∧
        Diagram.ofText d'.text = .ok r ∧
        r.lines = d'.lines ∧
        r.model.nodes = d.model.nodes ∧
        r.model.edges = d.model.edges.set position { edge with label, style } ∧
        (EdgePlace.all d'.lines)[position]? = some l' ∧
        l'.line = ⟨edge.source, edge.target, Edge.writtenLabel label, edge.source, edge.target⟩ ∧
        ∃ indent, (∀ c ∈ indent.toList, isBlank c = true) ∧
          d'.lines[l'.lineNumber]? =
            some (Edge.lineOf indent edge.source edge.target label)) ∨
      e.apply d (.updateEdge edge.id label style) = .error .oversizedNumber ∧
        2 ^ 63 < d.lines.length) := by
  have hreading := isReading_of_ofText hd
  have hrefused := fun problem =>
    @updateEdge_of_bare_eq_refused_iff e _ _ _ _ _ style hreading hedge hfirst hl hbare hlabel
      problem
  refine ⟨⟨?_, ?_⟩, ?_⟩
  · rintro ⟨problem, h, _⟩
    exact ((hrefused problem).mp h).2
  · intro hunwritable
    exact ⟨_, (hrefused _).mpr ⟨rfl, hunwritable⟩, rfl⟩
  · intro hwritable
    have hcases :=
      @updateEdge_cases e d (isWellFormed_of_isReading hreading) (isLegible_of_isReading hreading)
        edge.id label style
    refine hcases.imp_left ?_
    rintro ⟨outcome, houtcome⟩
    cases outcome with
    | refused problem =>
        exact absurd ((hrefused problem).mp houtcome).2 hwritable
    | changed d' created =>
        obtain ⟨rfl, l', hl', hline, hwritten⟩ :=
          updateEdge_of_bare_writes hreading hedge hfirst hl hbare hlabel houtcome
        obtain ⟨same, found, r, _, hsame, hfound, hr, hlines, hnodes, hedges, _⟩ :=
          updateEdge_reads_back he hd houtcome
        rw [hfirst] at hsame
        cases hsame
        rw [hedge] at hfound
        cases hfound
        exact ⟨d', r, l', houtcome, hr, hlines, hnodes, hedges, hl', hline, hwritten⟩

/-- Arrows, brackets, semicolons and blanks stand between the bars; a further bar does not. -/
theorem edge_label_guard_exact_of_arrows :
    ∃ d d' r : Diagram, ∃ edge l,
      IsIndent ({} : Editor).indent ∧
      Diagram.ofText " A -->|x| B ;" = .ok d ∧
      d.model.edges[0]? = some edge ∧
      d.model.edgeIndex? edge.id = some 0 ∧
      (EdgePlace.all d.lines)[0]? = some l ∧
      l.line.IsBare ∧
      " ] --> C[; " ≠ edge.label ∧
      "x|" ≠ edge.label ∧
      ({} : Editor).apply d (.updateEdge edge.id " ] --> C[; " {}) = .ok (.changed d' none) ∧
      d'.lines = [
        " A -->| ] --> C[; | B", "    linkStyle 0 stroke:#6b7280,color:#000000"] ∧
      Diagram.ofText d'.text = .ok r ∧
      r.model.edges = [{ edge with label := " ] --> C[; ", style := {} }] ∧
      ∃ problem,
        ({} : Editor).apply d (.updateEdge edge.id "x|" {}) = .ok (.refused problem) ∧
          problem.kind = .malformedEdge := by
  let edge : Edge := { id := "edge_A_B", source := "A", target := "B", label := "x" }
  let d : Diagram := {
    lines := [" A -->|x| B ;"]
    model := { nodes := [placeholder "A", placeholder "B"], edges := [edge] } }
  let l : EdgePlace := ⟨0, 0, ⟨"A", "B", some "x", "A", "B"⟩, "edge_A_B"⟩
  have hd : Diagram.ofText " A -->|x| B ;" = .ok d := by
    rfl
  have hfirst : d.model.edgeIndex? edge.id = some 0 := by
    rfl
  have hl : (EdgePlace.all d.lines)[0]? = some l := by
    rfl
  have hbare : l.line.IsBare := ⟨rfl, rfl⟩
  have hwritable : " ] --> C[; " ≠ edge.label := by
    decide
  have hunwritable : "x|" ≠ edge.label := by
    decide
  have hrun :
      (Edit.changed? (({} : Editor).apply d (.updateEdge edge.id " ] --> C[; " {}))).map
          (·.1.lines) =
        some [" A -->| ] --> C[; | B", "    linkStyle 0 stroke:#6b7280,color:#000000"] := by
    decide +kernel
  have hexact := fun label hlabel =>
    @edge_label_guard_exact {} _ label d 0 edge l isIndent_default hd rfl hfirst hl hbare hlabel {}
  have hrefused := (hexact "x|" hunwritable).1.mpr (by decide)
  rcases (hexact " ] --> C[; " hwritable).2 (by decide) with
    ⟨d', r, _, hchanged, hr, _, _, hedges, _⟩ | ⟨_, hlong⟩
  · rw [hchanged] at hrun
    exact ⟨d, d', r, edge, l, isIndent_default, hd, rfl, hfirst, hl, hbare, hwritable,
      hunwritable, hchanged, Option.some.inj hrun, hr, hedges, hrefused⟩
  · exact absurd hlong (by decide)

end Flowchart
