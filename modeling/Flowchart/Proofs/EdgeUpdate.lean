import Flowchart.Proofs.EdgeIds
import Flowchart.Proofs.EdgeStyles

/-!
# Updated edges

An update of an edge writes its edge line anew if the label changes, with the ends
as they were written, and then its style.  Of what the text is read as only the
label and the style of the first edge of the id change.  The model gives both to
every edge of the id, so text and model stay in step exactly if the edges of that
id run between the same ends; then there is only one.

* `updateEdge_reads_back`: what the new text is read as.
* `updateEdge_in_step_iff`: when the model after an update is that of the text.
-/

namespace Flowchart

open Edit

/-- An edge line with another label is an edge line between the same ends. -/
theorem relabelled_spec
    {old label : String} {e : EdgeLine}
    (hold : Line.classify old = .edge e)
    (holdLine : IsOneLine old)
    (hread :
      e.label.getD "" ≠ label →
        edgeReadsBack (relabelled old e label) e.source e.target label = true) :
    IsOneLine (relabelled old e label) ∧
      ∃ e', Line.classify (relabelled old e label) = .edge e' ∧
        e'.source = e.source ∧ e'.target = e.target ∧ e'.label.getD "" = label := by
  by_cases hlabel : e.label.getD "" = label
  · have hsame : relabelled old e label = old := if_pos (beq_iff_eq.mpr hlabel)
    rw [hsame]
    exact ⟨holdLine, e, hold, rfl, rfl, hlabel⟩
  · have hnew :
        relabelled old e label = Edge.lineOf (indentOf old) e.sourceText e.targetText label :=
      if_neg (by simpa using hlabel)
    obtain ⟨hlabelLine, hedge⟩ := edgeReadsBack_eq_true (hread hlabel)
    obtain ⟨hsource, htarget⟩ := isOneLine_of_classify_edge holdLine hold
    refine ⟨?_, hedge⟩
    rw [hnew]
    exact isOneLine_edgeLine (isIndent_indentOf_chars holdLine).oneLine hsource htarget hlabelLine

section UpdateEdge

variable {e : Editor} {d d' : Diagram} {id label : String} {style : EdgeStyle}
  {created : Option String}

/-- The lines around an edge line that is found, as they are and with another line in its place. -/
theorem exists_append_of_find?
    {source target : String} {label id : Option String} {l : EdgePlace}
    (h : EdgePlace.find? d.lines source target label id = some l) :
    ∃ front old back,
      d.lines = front ++ old :: back ∧
      front.length = l.lineNumber ∧
      Line.classify old = .edge l.line ∧
      (Line.edges (front.map Line.classify)).length = l.position ∧
      d.lines.getD l.lineNumber "" = old ∧
      (∀ new, d.lines.set l.lineNumber new = front ++ new :: back) ∧
      l.line.source = source ∧ l.line.target = target := by
  obtain ⟨hplace, hends, _⟩ := find?_edgePlaces h
  obtain ⟨front, old, back, hsplit, hnumber, hold, hfront⟩ := exists_append_of_edgePlace hplace
  refine ⟨front, old, back, hsplit, hnumber, hold, hfront, ?_, ?_, Prod.mk.inj hends⟩
  · rw [hsplit, ← hnumber]
    simp
  · intro new
    rw [hsplit, ← hnumber, List.set_append_right _ _ (Nat.le_refl _), Nat.sub_self]
    rfl

/-- The lines of an update: those around the edge line that it finds, and that line anew. -/
theorem updateEdge_splits
    (h : e.updateEdge d id label style = .ok (.changed d' created)) :
    ∃ edge l front old back,
      d.model.edge? id = some edge ∧
      EdgePlace.find? d.lines edge.source edge.target none (some edge.id) = some l ∧
      d.lines = front ++ old :: back ∧
      front.length = l.lineNumber ∧
      Line.classify old = .edge l.line ∧
      (Line.edges (front.map Line.classify)).length = l.position ∧
      (l.line.label.getD "" ≠ label →
        edgeReadsBack (relabelled old l.line label) edge.source edge.target label = true) ∧
      LinkStyle.replace (front ++ relabelled old l.line label :: back) l.position
        (style.write l.position e.indent) = .ok d'.lines ∧
      d'.model = {
        d.model with
        edges := d.model.edges.map fun other =>
          if other.id == edge.id then { edge with label, style } else other } := by
  obtain ⟨edge, l, new, hedge, hl, hnew, hread, hlines, hmodel⟩ := updateEdge_eq_changed h
  obtain ⟨front, old, back, hsplit, hnumber, hold, hfront, hget, hset, _⟩ :=
    exists_append_of_find? hl
  rw [hget] at hnew
  rw [hnew] at hread
  rw [hset, hnew] at hlines
  exact ⟨edge, l, front, old, back, hedge, hl, hsplit, hnumber, hold, hfront, hread, hlines,
    hmodel⟩

/-- The edge line that an update finds, as it is written, and the lines that replace it. -/
theorem updateEdge_rewrites
    (he : IsIndent e.indent)
    (honeLine : ∀ line ∈ d.lines, IsOneLine line)
    (h : e.updateEdge d id label style = .ok (.changed d' created)) :
    ∃ edge l front new back line,
      d.model.edge? id = some edge ∧
      EdgePlace.find? d.lines edge.source edge.target none (some edge.id) = some l ∧
      Line.classify new = .edge line ∧
      line.source = edge.source ∧ line.target = edge.target ∧ line.label.getD "" = label ∧
      (Line.edges (front.map Line.classify)).length = l.position ∧
      LinkStyle.replace (front ++ new :: back) l.position (style.write l.position e.indent) =
        .ok d'.lines ∧
      GivesEdge l.position line style d.lines d'.lines ∧
      d'.model = {
        d.model with
        edges := d.model.edges.map fun other =>
          if other.id == edge.id then { edge with label, style } else other } := by
  obtain ⟨edge, l, front, old, back, hedge, hl, hsplit, _, hold, hfront, hread, hlines, hmodel⟩ :=
    updateEdge_splits h
  obtain ⟨_, hends, _⟩ := find?_edgePlaces hl
  obtain ⟨hsource, htarget⟩ := Prod.mk.inj hends
  rw [hsplit] at honeLine
  have holdLine : IsOneLine old :=
    honeLine old (List.mem_append_right _ List.mem_cons_self)
  rw [← hsource, ← htarget] at hread
  obtain ⟨hnewLine, line, hkind, hlineSource, hlineTarget, hlabel⟩ :=
    relabelled_spec hold holdLine hread
  have hgives := LinkStyle.replace_gives hold hkind honeLine hnewLine he hfront hlines
  rw [← hsplit] at hgives
  exact ⟨edge, l, front, _, back, line, hedge, hl, hkind, hlineSource.trans hsource,
    hlineTarget.trans htarget, hlabel, hfront, hlines, hgives, hmodel⟩

/-- An update says label and style of the edge line that it finds anew, and nothing else. -/
theorem updateEdge_gives
    (he : IsIndent e.indent)
    (honeLine : ∀ line ∈ d.lines, IsOneLine line)
    (h : e.updateEdge d id label style = .ok (.changed d' created)) :
    ∃ edge l line,
      d.model.edge? id = some edge ∧
      EdgePlace.find? d.lines edge.source edge.target none (some edge.id) = some l ∧
      line.source = edge.source ∧ line.target = edge.target ∧ line.label.getD "" = label ∧
      GivesEdge l.position line style d.lines d'.lines ∧
      d'.model = {
        d.model with
        edges := d.model.edges.map fun other =>
          if other.id == edge.id then { edge with label, style } else other } := by
  obtain ⟨edge, l, _, _, _, line, hedge, hl, _, hsource, htarget, hlabel, _, _, hgives, hmodel⟩ :=
    updateEdge_rewrites he honeLine h
  exact ⟨edge, l, line, hedge, hl, hsource, htarget, hlabel, hgives, hmodel⟩

/-- The line that is found is that of the edge, since ids and ends together are not shared. -/
theorem position_of_find?
    {edge : Edge} {l : EdgePlace}
    (hd : d.IsReading)
    (hedge : d.model.edge? id = some edge)
    (hl : EdgePlace.find? d.lines edge.source edge.target none (some edge.id) = some l) :
    edge.id = id ∧ d.model.edgeIndex? id = some l.position ∧
      d.model.edges[l.position]? = some edge := by
  obtain ⟨hid, position, hindex, hposition⟩ := edgeIndex?_of_edge? hedge
  obtain ⟨_, _, found, hfound, hends, _, hfoundId⟩ := find?_edgePlaces hl
  rw [← hd.reads.edges] at hfound
  have hsame : l.position = position :=
    eq_of_same_id_of_same_ends hd.areNumbered hfound hposition hends (hfoundId edge.id rfl)
  subst hsame
  exact ⟨hid, hindex, hposition⟩

/-- An update says label and style of the first edge of its id anew, and nothing else. -/
theorem updateEdge_spec
    (he : IsIndent e.indent)
    (hd : d.IsReading)
    (h : e.updateEdge d id label style = .ok (.changed d' created)) :
    ∃ position edge line,
      d.model.edge? id = some edge ∧
      edge.id = id ∧
      d.model.edgeIndex? id = some position ∧
      d.model.edges[position]? = some edge ∧
      line.source = edge.source ∧ line.target = edge.target ∧ line.label.getD "" = label ∧
      GivesEdge position line style d.lines d'.lines ∧
      d'.model = {
        d.model with
        edges := d.model.edges.map fun other =>
          if other.id == id then { edge with label, style } else other } := by
  obtain ⟨edge, l, line, hedge, hl, hsource, htarget, hlabel, hgives, hmodel⟩ :=
    updateEdge_gives he hd.oneLine h
  obtain ⟨hid, hindex, hposition⟩ := position_of_find? hd hedge hl
  refine ⟨l.position, edge, line, hedge, hid, hindex, hposition, hsource, htarget, hlabel,
    hgives, ?_⟩
  rw [hmodel, hid]

/-- The new text is read as the old model with one edge given label and style. -/
theorem isReading_updatedEdge
    {position : Nat} {edge : Edge} {line : EdgeLine}
    (hd : d.IsReading)
    (hedge : d.model.edges[position]? = some edge)
    (hends : line.source = edge.source ∧ line.target = edge.target)
    (hlabel : line.label.getD "" = label)
    (h : GivesEdge position line style d.lines d'.lines) :
    (Diagram.mk d'.lines {
      d.model with
      edges := d.model.edges.set position { edge with label, style } }).IsReading := by
  have hdeclared :
      Reading.declaredNodes (d'.lines.map Line.classify) =
        Reading.declaredNodes (d.lines.map Line.classify) := by
    apply h.same.declaredNodes_eq
    rintro _ (⟨_, rfl⟩ | ⟨_, rfl⟩) <;> rfl
  have hstyles :
      ∀ owner,
        Line.styleOf (d'.lines.map Line.classify) owner =
          Line.styleOf (d.lines.map Line.classify) owner := by
    intro owner
    apply h.same.styleOf_eq
    rintro _ (⟨_, rfl⟩ | ⟨_, rfl⟩) <;> rfl
  have hother :
      ∀ rank, rank ≠ position →
        Line.edgeProperties rank (d'.lines.map Line.classify) =
          Line.edgeProperties rank (d.lines.map Line.classify) := by
    intro rank hrank
    apply h.same.edgeProperties_eq
    rintro _ (⟨_, rfl⟩ | ⟨_, rfl⟩)
    · rfl
    · rw [Line.edgeProperties_cons, if_neg (Ne.symm hrank)]
      rfl
  have hedges :
      Reading.modelEdges (d'.lines.map Line.classify) =
        d.model.edges.set position { edge with label, style } := by
    rw [hd.reads.edges] at hedge ⊢
    have hset := Reading.modelEdges_set hedge hends h.edges hother
    have hstyle : EdgeStyle.overwriteAll {} [style.properties] = style :=
      EdgeStyle.overwrite_properties style {}
    rwa [h.given, hstyle, hlabel] at hset
  refine ⟨h.oneLine, h.readable, ?_, ?_, hedges.symm⟩
  · have hsame :
        endpoints (d.model.edges.set position { edge with label, style }) =
          endpoints d.model.edges :=
      endpoints_congr (map_set_eq_map hedge rfl)
    rw [hd.reads.nodes, Reading.plainNodes_eq, Reading.plainNodes_eq, hdeclared, hedges, hsame,
      hd.reads.edges]
  · intro n hn
    rw [hstyles]
    exact hd.reads.styles n hn

/--
The new text is read as the old model with label and style given to one edge, the
first of the id: nodes and other edges are as they were.  One link-style line names
that edge, directly below its line, whatever lines named it before.
-/
theorem updateEdge_reads_back
    {text : String}
    (he : IsIndent e.indent)
    (hd : Diagram.ofText text = .ok d)
    (h : e.apply d (.updateEdge id label style) = .ok (.changed d' created)) :
    ∃ position edge r,
      d.model.edge? id = some edge ∧
      d.model.edgeIndex? id = some position ∧
      d.model.edges[position]? = some edge ∧
      Diagram.ofText d'.text = .ok r ∧
      r.lines = d'.lines ∧
      r.model.nodes = d.model.nodes ∧
      r.model.edges = d.model.edges.set position { edge with label, style } ∧
      ∃ l, (EdgePlace.all r.lines)[position]? = some l ∧
        LinkStyle.lineNumbers r.lines position = [l.lineNumber + 1] := by
  have hreading := isReading_of_ofText hd
  obtain ⟨position, edge, line, hedge, _, hindex, hposition, hsource, htarget, hlabel, hgives, _⟩ :=
    updateEdge_spec he hreading h
  have hread := isReading_updatedEdge hreading hposition ⟨hsource, htarget⟩ hlabel hgives
  exact ⟨position, edge, _, hedge, hindex, hposition, hread.ofText_text hgives.ne_singleton, rfl,
    rfl, rfl, hgives.below⟩

/-- Brackets of an end stay, and one link-style line replaces those above and below. -/
theorem updateEdge_reads_back_of_brackets :
    ∃ d d' : Diagram,
      IsIndent ({} : Editor).indent ∧
      Diagram.ofText "linkStyle 0 stroke:#ff0000\nA[One] --> B\nlinkStyle 0 color:#00ff00" =
        .ok d ∧
      ({} : Editor).apply d (.updateEdge "edge_A_B" "x" {}) = .ok (.changed d' none) ∧
      d'.lines = ["A[One] -->|x| B", "    linkStyle 0 stroke:#6b7280,color:#000000"] ∧
      ∃ position edge r,
        d.model.edge? "edge_A_B" = some edge ∧
        d.model.edgeIndex? "edge_A_B" = some position ∧
        d.model.edges[position]? = some edge ∧
        Diagram.ofText d'.text = .ok r ∧
        r.lines = d'.lines ∧
        r.model.nodes = d.model.nodes ∧
        r.model.edges = d.model.edges.set position { edge with label := "x", style := {} } ∧
        ∃ l, (EdgePlace.all r.lines)[position]? = some l ∧
          LinkStyle.lineNumbers r.lines position = [l.lineNumber + 1] := by
  have hd :
      Diagram.ofText "linkStyle 0 stroke:#ff0000\nA[One] --> B\nlinkStyle 0 color:#00ff00" =
        .ok {
          lines := ["linkStyle 0 stroke:#ff0000", "A[One] --> B", "linkStyle 0 color:#00ff00"]
          model := {
            nodes := [placeholder "A", placeholder "B"]
            edges := [
              { id := "edge_A_B", source := "A", target := "B",
                style := {
                  lineColor := ⟨"#ff0000", rfl⟩
                  labelColor := ⟨"#00ff00", rfl⟩ } }] } } := by
    rfl
  have h :
      ({} : Editor).apply {
          lines := ["linkStyle 0 stroke:#ff0000", "A[One] --> B", "linkStyle 0 color:#00ff00"]
          model := {
            nodes := [placeholder "A", placeholder "B"]
            edges := [
              { id := "edge_A_B", source := "A", target := "B",
                style := {
                  lineColor := ⟨"#ff0000", rfl⟩
                  labelColor := ⟨"#00ff00", rfl⟩ } }] } }
          (.updateEdge "edge_A_B" "x" {}) =
        .ok (.changed {
          lines := ["A[One] -->|x| B", "    linkStyle 0 stroke:#6b7280,color:#000000"]
          model := {
            nodes := [placeholder "A", placeholder "B"]
            edges := [{ id := "edge_A_B", source := "A", target := "B", label := "x" }] } }
          none) := by
    rfl
  exact ⟨_, _, isIndent_default, hd, h, rfl, updateEdge_reads_back isIndent_default hd h⟩

end UpdateEdge

/--
Changing the edge at a position is changing all edges of its id if they share their ends,
for then it is the only one of its id.
-/
theorem set_eq_map_iff
    {edges : List Edge} {position : Nat} {edge new : Edge}
    (hnumbered : AreNumbered edges)
    (hedge : edges[position]? = some edge)
    (hnew : new.ends = edge.ends) :
    edges.set position new = edges.map (fun other => if other.id == edge.id then new else other) ↔
      ∀ other ∈ edges, other.id = edge.id → other.ends = edge.ends := by
  constructor
  · intro hsame other hother hid
    obtain ⟨rank, hrank⟩ := List.mem_iff_getElem?.mp hother
    by_cases heq : rank = position
    · rw [heq, hedge] at hrank
      rw [Option.some.inj hrank]
    · have hchanged := congrArg (·[rank]?) hsame
      rw [List.getElem?_set_ne (Ne.symm heq), List.getElem?_map, hrank, Option.map_some,
        if_pos (beq_iff_eq.mpr hid)] at hchanged
      rw [Option.some.inj hchanged, hnew]
  · intro hends
    apply List.ext_getElem?
    intro rank
    rw [List.getElem?_map]
    by_cases heq : rank = position
    · rw [heq, List.getElem?_set_self (List.getElem?_eq_some_iff.mp hedge).1, hedge,
        Option.map_some, if_pos (beq_iff_eq.mpr rfl)]
    · rw [List.getElem?_set_ne (Ne.symm heq)]
      cases hrank : edges[rank]? with
      | none =>
          rfl
      | some other =>
          have hid : other.id ≠ edge.id := by
            intro hid
            have hother := hends other (List.mem_of_getElem? hrank) hid
            exact heq (eq_of_same_id_of_same_ends hnumbered hrank hedge hother hid)
          rw [Option.map_some, if_neg (by simpa using hid)]

section UpdateEdge

variable {e : Editor} {d d' : Diagram} {id label : String} {style : EdgeStyle}
  {created : Option String}

/--
The model after the update of an edge is the one that its text is read as exactly
if all edges of the id run between the ends of the first.  In the text only that
edge changes; in the model every edge of the id becomes it.  Where the ids of nodes
hold no underscore, no other edge has the id.
-/
theorem updateEdge_in_step_iff
    {text : String}
    (he : IsIndent e.indent)
    (hd : Diagram.ofText text = .ok d)
    (h : e.apply d (.updateEdge id label style) = .ok (.changed d' created)) :
    ∃ position edge r,
      d.model.edgeIndex? id = some position ∧
      d.model.edges[position]? = some edge ∧
      Diagram.ofText d'.text = .ok r ∧
      r.model.nodes = d.model.nodes ∧
      r.model.edges = d.model.edges.set position { edge with label, style } ∧
      d'.model.nodes = d.model.nodes ∧
      d'.model.edges =
        d.model.edges.map (fun other =>
          if other.id == id then { edge with label, style } else other) ∧
      (r.model = d'.model ↔ ∀ other ∈ d.model.edges, other.id = id → other.ends = edge.ends) ∧
      ((∀ end' ∈ endpoints d.model.edges, '_' ∉ end'.toList) → r.model = d'.model) := by
  have hreading := isReading_of_ofText hd
  obtain ⟨position, edge, line, _, rfl, hindex, hposition, hsource, htarget, hlabel, hgives,
    hmodel⟩ := updateEdge_spec he hreading h
  have hread := isReading_updatedEdge hreading hposition ⟨hsource, htarget⟩ hlabel hgives
  have hiff :
      Model.mk d.model.nodes (d.model.edges.set position { edge with label, style }) =
          d'.model ↔
        ∀ other ∈ d.model.edges, other.id = edge.id → other.ends = edge.ends := by
    rw [hmodel, Model.mk.injEq]
    refine (and_iff_right rfl).trans (set_eq_map_iff hreading.areNumbered hposition ?_)
    rfl
  refine ⟨position, edge, _, hindex, hposition, hread.ofText_text hgives.ne_singleton, rfl, rfl,
    ?_, ?_, hiff, ?_⟩
  · rw [hmodel]
  · rw [hmodel]
  · intro hends
    have htell := hreading.areNumbered.tellEnds_of_no_underscore hends
    exact hiff.mpr fun other hother hid =>
      htell other hother edge (List.mem_of_getElem? hposition) hid

/-- Of two edges between the same ends only the one of the id is changed. -/
theorem updateEdge_in_step_of_parallel_edges :
    ∃ d d' r : Diagram,
      IsIndent ({} : Editor).indent ∧
      Diagram.ofText "A --> B\nA --> B" = .ok d ∧
      ({} : Editor).apply d (.updateEdge "edge_A_B_1" "x" {}) = .ok (.changed d' none) ∧
      d'.lines = ["A --> B", "A -->|x| B", "    linkStyle 1 stroke:#6b7280,color:#000000"] ∧
      Diagram.ofText d'.text = .ok r ∧
      r.model = d'.model := by
  have hd :
      Diagram.ofText "A --> B\nA --> B" =
        .ok {
          lines := ["A --> B", "A --> B"]
          model := {
            nodes := [placeholder "A", placeholder "B"]
            edges := [
              { id := "edge_A_B", source := "A", target := "B" },
              { id := "edge_A_B_1", source := "A", target := "B" }] } } := by
    rfl
  have h :
      ({} : Editor).apply {
          lines := ["A --> B", "A --> B"]
          model := {
            nodes := [placeholder "A", placeholder "B"]
            edges := [
              { id := "edge_A_B", source := "A", target := "B" },
              { id := "edge_A_B_1", source := "A", target := "B" }] } }
          (.updateEdge "edge_A_B_1" "x" {}) =
        .ok (.changed {
          lines := ["A --> B", "A -->|x| B", "    linkStyle 1 stroke:#6b7280,color:#000000"]
          model := {
            nodes := [placeholder "A", placeholder "B"]
            edges := [
              { id := "edge_A_B", source := "A", target := "B" },
              { id := "edge_A_B_1", source := "A", target := "B", label := "x" }] } } none) := by
    rfl
  obtain ⟨_, _, r, _, _, hr, _, _, _, _, _, hstep⟩ :=
    updateEdge_in_step_iff isIndent_default hd h
  exact ⟨_, _, r, isIndent_default, hd, h, rfl, hr, hstep (by decide)⟩

/-- Of two edges that share an id the text has one changed, and the model both. -/
theorem updateEdge_out_of_step :
    ∃ d d' r : Diagram,
      Diagram.ofText "A_B --> C\nA --> B_C" = .ok d ∧
      ({} : Editor).apply d (.updateEdge "edge_A_B_C" "x" {}) = .ok (.changed d' none) ∧
      d'.lines =
        ["A_B -->|x| C", "    linkStyle 0 stroke:#6b7280,color:#000000", "A --> B_C"] ∧
      Diagram.ofText d'.text = .ok r ∧
      r.model.edges.map (fun edge => (edge.ends, edge.label)) =
        [(("A_B", "C"), "x"), (("A", "B_C"), "")] ∧
      d'.model.edges.map (fun edge => (edge.ends, edge.label)) =
        [(("A_B", "C"), "x"), (("A_B", "C"), "x")] ∧
      r.model ≠ d'.model := by
  have h :
      ({} : Editor).apply clashing (.updateEdge "edge_A_B_C" "x" {}) =
        .ok (.changed {
          lines :=
            ["A_B -->|x| C", "    linkStyle 0 stroke:#6b7280,color:#000000", "A --> B_C"]
          model := {
            clashing.model with
            edges := [
              { id := "edge_A_B_C", source := "A_B", target := "C", label := "x" },
              { id := "edge_A_B_C", source := "A_B", target := "C", label := "x" }] } }
          none) := by
    rfl
  have hr :
      Diagram.ofText
          "A_B -->|x| C\n    linkStyle 0 stroke:#6b7280,color:#000000\nA --> B_C" =
        .ok {
          lines :=
            ["A_B -->|x| C", "    linkStyle 0 stroke:#6b7280,color:#000000", "A --> B_C"]
          model := {
            clashing.model with
            edges := [
              { id := "edge_A_B_C", source := "A_B", target := "C", label := "x" },
              { id := "edge_A_B_C", source := "A", target := "B_C" }] } } := by
    rfl
  refine ⟨_, _, _, ofText_clashing, h, rfl, hr, rfl, rfl, ?_⟩
  intro hsame
  have hedges := congrArg (fun m : Model => m.edges.map (·.source)) hsame
  exact absurd hedges (by decide)

end UpdateEdge

end Flowchart
