import Flowchart.Proofs.EdgeAddresses
import Flowchart.Proofs.EditFaults

/-!
# Updates that are repeated

An update writes a line of a node only where it says something else, and writes
style lines only where together they say another style; so an update is settled,
and leaves the diagram as it is, once all lines say what it would write.  Its own
first application settles it, whatever the lines said before.  An edge line is
written anew under the same condition; its link-style lines are always replaced,
by a line that takes the place of the one that stands there already.

Writing back the values of a node as they were read is settled only if all node
lines of the node agree.  An earlier declaration that a later one supersedes does
not count for the values, but it is written anew as well.

* `updateNode_of_settled`: a settled update changes nothing.
* `settles_of_updateNode`: an update settles itself.
* `update_idempotent`: an update that is repeated changes nothing.
* `writes_back_iff`: when writing back the values of a node changes nothing.
-/

namespace Flowchart

open Edit Text

section StableModels

/-- The nodes of a model are completed to themselves if every placeholder is still an end. -/
theorem completeNodes_self
    {m : Model}
    (hnodup : m.nodeIds.Nodup)
    (hsplit : m.nodes = m.declared ++ m.nodes.filter (!·.declared))
    (hids :
      (m.nodes.filter (!·.declared)).map (·.id) =
        newEnds (m.declared.map (·.id)) (endpoints m.edges)) :
    completeNodes m.declared m.edges m.nodes = m.nodes := by
  rw [completeNodes_eq, ← hids, Reading.map_former_of_nodup hnodup]
  exact hsplit.symm

theorem Reading.Reads.completeNodes_self
    {kinds : List Line} {m : Model}
    (h : Reads kinds m) :
    completeNodes m.declared m.edges m.nodes = m.nodes :=
  Flowchart.completeNodes_self h.nodup_nodeIds h.declared_eq.2.2 h.map_id_placeholders

theorem rebuild_self
    {m : Model}
    (h : completeNodes m.declared m.edges m.nodes = m.nodes)
    (lines : List String) :
    rebuild m.declared m.edges m.nodes lines = .ok m := by
  refine rebuild_eq_ok_iff.mpr ⟨?_, rfl⟩
  rw [h, mapM_keepOrStyle fun n hn => List.mem_map_of_mem hn]

/-- Declaring a node anew as it is changes nothing. -/
theorem map_redeclared_self
    {declared : List Node} {n : Node}
    (h : ∀ k ∈ declared, k.id = n.id → k = n) :
    (declared.map fun k => if k.id == n.id then n else k) = declared := by
  have hsame : ∀ k ∈ declared, (if k.id == n.id then n else k) = k := by
    intro k hk
    split
    · rename_i hid
      exact (h k hk (beq_iff_eq.mp hid)).symm
    · rfl
  rw [List.map_congr_left hsame, List.map_id']

end StableModels

/-- Whether all declarations of an id declare the same node. -/
def DeclaresOnly (n : Node) (kinds : List Line) : Prop :=
  ∀ k ∈ Reading.declarations kinds, k.id = n.id → k = n

section Stale

variable {id label : String} {shape : Shape}

/-- A stale line declares the id as another node. -/
theorem isStale_eq_true_iff
    {line : String} :
    isStale id label shape line = true ↔
      ∃ body, Line.classify line = .node id body ∧
        Reading.declaredNode id body ≠ ⟨id, label, shape, {}, true⟩ := by
  unfold isStale
  rw [Bool.and_eq_true, Bool.not_eq_true', declaresNode_eq_true_iff]
  constructor
  · rintro ⟨⟨body, hkind⟩, hnot⟩
    refine ⟨body, hkind, ?_⟩
    intro hsame
    unfold Reading.declaredNode at hsame
    simp only [Node.mk.injEq, ShapeRef.known.injEq] at hsame
    unfold declaresAs at hnot
    simp [hkind, hsame.2.1, hsame.2.2.1] at hnot
  · rintro ⟨body, hkind, hne⟩
    refine ⟨⟨body, hkind⟩, ?_⟩
    rw [← Bool.not_eq_true]
    intro has
    obtain ⟨body', hkind', hsame⟩ :=
      declaredNode_of_declaresAs (declaresNode_eq_true_iff.mpr ⟨body, hkind⟩) has
    rw [hkind] at hkind'
    cases hkind'
    exact hne hsame

/-- No line is stale if and only if all declarations of the id are of the node. -/
theorem any_isStale_eq_false_iff
    {lines : List String} :
    lines.any (isStale id label shape) = false ↔
      DeclaresOnly ⟨id, label, shape, {}, true⟩ (lines.map Line.classify) := by
  rw [List.any_eq_false]
  constructor
  · intro h k hk hid
    obtain ⟨line, hline, owner, body, hkind, rfl⟩ := mem_declarations_iff.mp hk
    obtain rfl : owner = id := hid
    by_contra hne
    exact h line hline (isStale_eq_true_iff.mpr ⟨body, hkind, hne⟩)
  · intro h line hline hstale
    obtain ⟨body, hkind, hne⟩ := isStale_eq_true_iff.mp hstale
    exact hne (h _ (mem_declarations_iff.mpr ⟨line, hline, id, body, hkind, rfl⟩) rfl)

/-- Writing the stale lines anew shows if and only if there are any. -/
theorem map_freshLine_eq_self_iff
    {lines : List String}
    (honeLine : ∀ line ∈ lines, IsOneLine line)
    (hread : lines.any (isStale id label shape) = true → nodeReadsBack id shape label = .ok true) :
    lines.map (freshLine id label shape) = lines ↔
      lines.any (isStale id label shape) = false := by
  rw [List.any_eq_false]
  constructor
  · intro h line hline hstale
    obtain ⟨body, hkind, hne⟩ := isStale_eq_true_iff.mp hstale
    have hsame : freshLine id label shape line = line :=
      List.map_inj_left.mp (h.trans (List.map_id' lines).symm) line hline
    rcases (freshLine_spec_of_mem honeLine hread hline).2 with ⟨_, hnot⟩ | ⟨_, body', hnew, heq⟩
    · exact hnot ⟨body, hkind⟩
    · rw [hsame, hkind] at hnew
      cases hnew
      exact hne heq
  · exact fun h => map_freshLine_of_not_stale (List.any_eq_false.mpr h)

end Stale

/-- A style that the lines say already is not written. -/
theorem writeNodeStyle_self
    {e : Editor} {lines : List String} {id : String} {s style : NodeStyle}
    (hreadable : IsReadable lines)
    (hs : Line.styleOf (lines.map Line.classify) id = .ok s)
    (hagrees : s.agrees style = true) :
    e.writeNodeStyle lines id style = .ok lines := by
  have hnode : nodeStyle lines id = .ok s := hs
  unfold Editor.writeNodeStyle
  rw [checkReadable_eq_ok_iff.mpr hreadable]
  change (if _ then _ else _) = _
  cases hany : lines.any (stylesNode id) with
  | true =>
      rw [if_pos rfl, hnode]
      change (if s.agrees style = true then _ else _) = _
      rw [if_pos hagrees]
      rfl
  | false =>
      rw [Line.styleOf_of_nodeProperties (nodeProperties_eq_nil hany)] at hs
      cases hs
      have hdefault : style.isDefault = true := NodeStyle.agrees_symm hagrees
      rw [if_neg Bool.false_ne_true, hdefault]
      rfl

/-- A diagram that says already what an update of a node would write. -/
structure Diagram.IsSettled (d : Diagram) (id label : String) (shape : Shape)
    (style : NodeStyle) : Prop where
  readable : IsReadable d.lines
  declared : d.lines.any (declaresNode id) = true
  only : DeclaresOnly ⟨id, label, shape, {}, true⟩ (d.lines.map Line.classify)
  styled : ∃ s, Line.styleOf (d.lines.map Line.classify) id = .ok s ∧ s.agrees style = true
  node : ∀ n ∈ d.model.declared, n.id = id → n = ⟨id, label, shape, style, true⟩
  complete : completeNodes d.model.declared d.model.edges d.model.nodes = d.model.nodes

section UpdateNode

variable {e : Editor} {d d' : Diagram} {id label : String} {ref : ShapeRef} {shape : Shape}
  {style : NodeStyle} {created : Option String}

/-- An update of a declared node: its stale lines are written anew, and then its style. -/
theorem updateNode_of_declared
    {lines : List String} {m : Model}
    (hshape : ref.resolve = .ok shape)
    (hreadable : IsReadable d.lines)
    (hdeclared : d.lines.any (declaresNode id) = true)
    (hread :
      d.lines.any (isStale id label shape) = true → nodeReadsBack id shape label = .ok true)
    (hlines : e.writeNodeStyle (d.lines.map (freshLine id label shape)) id style = .ok lines)
    (hmodel :
      rebuild
        (d.model.declared.map fun n => if n.id == id then ⟨id, label, shape, style, true⟩ else n)
        d.model.edges d.model.nodes lines = .ok m) :
    e.updateNode d id label ref style = .ok (.changed ⟨lines, m⟩ none) := by
  refine bind_eq_ok_iff.mpr ⟨shape, hshape,
    bind_eq_ok_iff.mpr ⟨(), checkReadable_eq_ok_iff.mpr hreadable, ?_⟩⟩
  dsimp only
  rw [hdeclared, if_neg (by simp)]
  have hwrite :
      (e.writeNodeStyle (d.lines.map (freshLine id label shape)) id style >>= fun lines =>
        rebuild
          (d.model.declared.map fun n => if n.id == id then ⟨id, label, shape, style, true⟩ else n)
          d.model.edges d.model.nodes lines >>= fun model =>
            .ok (Outcome.changed ⟨lines, model⟩ none)) = .ok (.changed ⟨lines, m⟩ none) :=
    bind_eq_ok_iff.mpr ⟨lines, hlines, bind_eq_ok_iff.mpr ⟨m, hmodel, rfl⟩⟩
  split
  · rename_i hwritten
    rw [Bool.not_true, Bool.or_false] at hwritten
    exact bind_eq_ok_iff.mpr ⟨true, hread hwritten, hwrite⟩
  · exact bind_eq_ok_iff.mpr ⟨true, rfl, hwrite⟩

/-- A settled update changes nothing. -/
theorem updateNode_of_settled
    (hshape : ref.resolve = .ok shape)
    (h : d.IsSettled id label shape style) :
    e.updateNode d id label ref style = .ok (.changed d none) := by
  have hstale := any_isStale_eq_false_iff.mpr h.only
  have hread :
      d.lines.any (isStale id label shape) = true → nodeReadsBack id shape label = .ok true := by
    rw [hstale]
    exact fun hfalse => absurd hfalse Bool.false_ne_true
  have hfresh : d.lines.map (freshLine id label shape) = d.lines :=
    map_freshLine_of_not_stale hstale
  obtain ⟨s, hs, hagrees⟩ := h.styled
  apply updateNode_of_declared hshape h.readable h.declared hread
  · rw [hfresh]
    exact writeNodeStyle_self h.readable hs hagrees
  · rw [@map_redeclared_self _ ⟨id, label, shape, style, true⟩ h.node]
    exact rebuild_self h.complete d.lines

section Settling

/--
What an update writes declares the id as the node and as no other.  If it adds a line,
no old line declared the id, since the node would have been a declared one.
-/
theorem declaresOnly_written
    {lines : List String} {indent : String}
    (hindent : IsIndent indent)
    (honeLine : ∀ line ∈ lines, IsOneLine line)
    (hread :
      lines.any (isStale id label shape) = true ∨ lines.any (declaresNode id) = false →
        nodeReadsBack id shape label = .ok true) :
    DeclaresOnly ⟨id, label, shape, {}, true⟩
      ((if lines.any (declaresNode id) then lines.map (freshLine id label shape)
        else
          append (lines.map (freshLine id label shape))
            (Node.lineOf indent id shape label)).map Line.classify) := by
  intro k hk hid
  cases hdeclared : lines.any (declaresNode id) with
  | true =>
      rw [hdeclared, if_pos rfl,
        declarations_fresh honeLine fun hstale => hread (Or.inl hstale)] at hk
      obtain ⟨n, _, rfl⟩ := List.mem_map.mp hk
      by_cases hn : n.id = id
      · rw [if_pos (beq_iff_eq.mpr hn)]
      · rw [if_neg (by simpa using hn)] at hid
        exact absurd hid hn
  | false =>
      obtain ⟨_, body, hbody, hnode⟩ := nodeReadsBack_eq_true (hread (Or.inr hdeclared))
      have hkind : Line.classify (Node.lineOf indent id shape label) = .node id body :=
        classify_nodeLine isIndent_default.blank hindent.blank hbody fun _ => Line.noConfusion
      rw [hdeclared, if_neg Bool.false_ne_true, map_freshLine_of_not_declared hdeclared,
        (extends_append lines _).declarations, hkind] at hk
      rcases List.mem_append.mp hk with hk | hk
      · have hmem := List.mem_map_of_mem (f := (·.id)) hk
        rw [hid, ← Reading.mem_map_id_declaredNodes, ← any_declaresNode_iff, hdeclared] at hmem
        cases hmem
      · rw [List.mem_singleton.mp hk]
        exact hnode

theorem eq_known_of_resolve
    (h : ref.resolve = .ok shape) :
    ref = .known shape := by
  cases ref with
  | known other =>
      cases h
      rfl
  | unknown given =>
      cases h

/-- After an update the diagram says what the update would write. -/
theorem settles_of_updateNode
    (he : IsIndent e.indent)
    (hd : d.IsReading)
    (h : e.updateNode d id label ref style = .ok (.changed d' created)) :
    ∃ shape, ref.resolve = .ok shape ∧ d'.IsSettled id label shape style := by
  obtain ⟨shape, written, hshape, _, _, hread, hwritten, hstyle, hmodel⟩ :=
    updateNode_eq_changed h
  have hgiven := givesNode_written he hd.oneLine hread
  have honly := declaresOnly_written he hd.oneLine hread
  rw [← hwritten] at hgiven honly
  obtain ⟨hid, hnode⟩ := hgiven
  have hgives := writeNodeStyle_gives he hid hnode.oneLine hstyle
  have hwell := isWellFormed_updateNode he (isWellFormed_of_isReading hd) h
  rw [eq_known_of_resolve hshape] at h
  obtain ⟨_, _, hnew⟩ := updateNode_spec he hd h
  refine ⟨shape, hshape, hgives.readable, hnode.any_declaresNode_of_styled hgives, ?_,
    hgives.given, ?_, ?_⟩
  · unfold DeclaresOnly
    rw [hgives.same.declarations_eq (by rintro _ ⟨_, rfl⟩; rfl)]
    exact honly
  · intro n hn hnid
    rw [hnew] at hn
    obtain ⟨hn, _⟩ := List.mem_filter.mp hn
    rcases List.mem_append.mp hn with hn | hn
    · rcases Reading.mem_declare hn with ⟨_, hne⟩ | heq
      · exact absurd hnid hne
      · exact heq
    · have hne := (Bool.and_eq_true_iff.mp (List.mem_filter.mp hn).2).2
      exact absurd hnid (bne_iff_ne.mp hne)
  · have hany : d.lines.any (declaresNode id) = true ↔ _ :=
      (isWellFormed_of_isReading hd).any_declaresNode_iff
    rw [redeclared_eq_declare (n := ⟨id, label, shape, style, true⟩) hany] at hmodel
    obtain ⟨hsplit, hfirst, hsecond⟩ :=
      nodes_rebuild (fun _ => declared_of_mem_declare rfl) hmodel
    refine completeNodes_self hwell.nodup hsplit ?_
    rw [hsecond, hfirst, (rebuild_eq_ok_iff.mp hmodel).2]

end Settling

end UpdateNode

/-- A second link-style line would take the place of the first. -/
theorem LinkStyle.rewritten_rewritten
    {position : Nat} {styleLine : String}
    (hstyle : keeps position styleLine = false)
    (front : List String) (line : String) (back : List String) :
    rewritten position (front.filter (keeps position)) line styleLine
        (styleLine :: back.filter (keeps position)) =
      rewritten position front line styleLine back := by
  unfold rewritten
  rw [List.filter_cons_of_neg (by rw [hstyle]; exact Bool.false_ne_true), List.filter_filter,
    List.filter_filter]
  simp only [Bool.and_self]

section UpdateEdge

variable {e : Editor} {d d' : Diagram} {id label : String} {style : EdgeStyle}
  {created : Option String}

/-- The first edge of an id, after all edges of that id are replaced. -/
theorem find?_replaced
    {edges : List Edge} {edge new : Edge}
    (hedge : edges.find? (·.id == id) = some edge)
    (hnew : new.id = id) :
    (edges.map fun other => if other.id == id then new else other).find? (·.id == id) =
      some new := by
  rw [List.find?_map]
  have hsame :
      ((·.id == id) ∘ fun other : Edge => if other.id == id then new else other) =
        (·.id == id) := by
    funext other
    rw [Function.comp_apply]
    split
    · rename_i hid
      rw [hnew, hid, beq_self_eq_true]
    · rfl
  have hid := List.find?_some hedge
  rw [hsame, hedge, Option.map_some, if_pos hid]

/-- Replacing the edges of an id once more changes nothing. -/
theorem map_replaced
    {edges : List Edge} {new : Edge}
    (hnew : new.id = id) :
    ((edges.map fun other => if other.id == id then new else other).map fun other =>
        if other.id == id then new else other) =
      edges.map fun other => if other.id == id then new else other := by
  rw [List.map_map]
  apply List.map_congr_left
  intro other _
  rw [Function.comp_apply]
  split
  · rw [if_pos (beq_iff_eq.mpr hnew)]
  · rfl

/-- A settled update changes nothing: the label stands already, and the style in its place. -/
theorem updateEdge_of_settled
    {edge : Edge} {l : EdgePlace}
    (hreadable : IsReadable d.lines)
    (hedge : d.model.edge? id = some edge)
    (hl : EdgePlace.find? d.lines edge.source edge.target none (some edge.id) = some l)
    (hlabel : l.line.label.getD "" = label)
    (hlines :
      LinkStyle.replace d.lines l.position (style.write l.position e.indent) = .ok d.lines)
    (hedges :
      (d.model.edges.map fun other =>
        if other.id == edge.id then { edge with label, style } else other) = d.model.edges) :
    e.updateEdge d id label style = .ok (.changed d none) := by
  have hset : d.lines.set l.lineNumber (d.lines.getD l.lineNumber "") = d.lines := by
    by_cases hlength : l.lineNumber < d.lines.length
    · rw [List.getD_eq_getElem?_getD, List.getElem?_eq_getElem hlength, Option.getD_some,
        List.set_getElem_self]
    · exact List.set_eq_of_length_le (Nat.le_of_not_lt hlength)
  unfold Editor.updateEdge
  rw [hedge]
  refine bind_eq_ok_iff.mpr ⟨(), checkReadable_eq_ok_iff.mpr hreadable, ?_⟩
  rw [hl]
  dsimp only
  rw [beq_iff_eq.mpr hlabel, if_neg (by simp), if_pos rfl, hset, hedges]
  exact bind_eq_ok_iff.mpr ⟨d.lines, hlines, rfl⟩

/--
An update of an edge that is repeated changes nothing: the edge is found again at its
place, and the new link-style line is the only one, which takes its own place.
-/
theorem updateEdge_updateEdge
    (he : IsIndent e.indent)
    (hd : d.IsReading)
    (h : e.updateEdge d id label style = .ok (.changed d' created)) :
    e.updateEdge d' id label style = .ok (.changed d' none) := by
  obtain ⟨edge, l, front, new, back, line, hedge, hl, hkind, hsource, htarget, hlabel, hfront,
    hlines, hgives, hmodel⟩ := updateEdge_rewrites he hd.oneLine h
  obtain ⟨rfl, _, hposition⟩ := position_of_find? hd hedge hl
  obtain ⟨_, hbound, hrewritten⟩ := LinkStyle.replace_eq_ok hkind hfront hlines
  have hread := isReading_updatedEdge hd hposition ⟨hsource, htarget⟩ hlabel hgives
  have hnewEdge :
      (Reading.modelEdges (d'.lines.map Line.classify))[l.position]? =
        some { edge with label, style } := by
    rw [← hread.reads.edges]
    exact List.getElem?_set_self (List.getElem?_eq_some_iff.mp hposition).1
  have hfront' :
      (Line.edges ((front.filter (LinkStyle.keeps l.position)).map Line.classify)).length =
        l.position := by
    rw [LinkStyle.edges_filter_keeps, hfront]
  obtain ⟨l', hl', _, hline⟩ :=
    getElem?_edgePlaces_append hkind (front.filter (LinkStyle.keeps l.position))
      (style.write l.position e.indent :: back.filter (LinkStyle.keeps l.position))
  rw [hfront'] at hl'
  have hsplit :
      d'.lines =
        front.filter (LinkStyle.keeps l.position) ++ new ::
          style.write l.position e.indent :: back.filter (LinkStyle.keeps l.position) :=
    hrewritten
  rw [← hsplit] at hl'
  have hfound := find?_of_modelEdges hnewEdge hl'
  have hplace : l'.position = l.position := (getElem?_edgePlaces hl').1
  have hstyle :=
    EdgeStyle.classify_write (length_toDigits_le_indexLimit hbound) he.blank style
  have hreplace :
      LinkStyle.replace d'.lines l.position (style.write l.position e.indent) =
        .ok d'.lines := by
    have hreadable := hgives.readable
    rw [hsplit] at hreadable
    rcases LinkStyle.replace_cases hkind hfront' hreadable (style.write l.position e.indent)
      with ⟨lines', hlines'⟩ | ⟨_, hlarge⟩
    · obtain ⟨_, _, hsame⟩ := LinkStyle.replace_eq_ok hkind hfront' hlines'
      rw [LinkStyle.rewritten_rewritten (LinkStyle.keeps_eq_false_iff.mpr ⟨_, hstyle⟩),
        ← hrewritten] at hsame
      rw [hsame, ← hsplit] at hlines'
      exact hlines'
    · exact absurd hlarge (Nat.not_le_of_lt hbound)
  have hedge' : d'.model.edge? edge.id = some { edge with label, style } := by
    unfold Model.edge?
    rw [hmodel]
    exact find?_replaced hedge rfl
  refine updateEdge_of_settled hgives.readable hedge' hfound ?_ ?_ ?_
  · rw [hline]
    exact hlabel
  · rw [hplace]
    exact hreplace
  · rw [hmodel]
    exact map_replaced rfl

end UpdateEdge

section RepeatedUpdates

/-- Whether an edit updates a node or an edge. -/
def Edit.IsUpdate : Edit → Prop
  | .updateNode _ _ _ _ => True
  | .updateEdge _ _ _ => True
  | _ => False

/--
An update that changed a diagram leaves the new one as it is when it is repeated,
its lines as well as its model.
-/
theorem update_idempotent
    {e : Editor} {text : String} {d d' : Diagram} {edit : Edit} {created : Option String}
    (he : IsIndent e.indent)
    (hupdate : edit.IsUpdate)
    (hd : Diagram.ofText text = .ok d)
    (h : e.apply d edit = .ok (.changed d' created)) :
    e.apply d' edit = .ok (.changed d' none) := by
  have hread := isReading_of_ofText hd
  cases edit with
  | updateNode id label ref style =>
      obtain ⟨shape, hshape, hsettled⟩ := settles_of_updateNode he hread h
      exact updateNode_of_settled hshape hsettled
  | updateEdge id label style =>
      exact updateEdge_updateEdge he hread h
  | _ =>
      exact absurd hupdate id

/--
A placeholder is promoted and its style lines are merged, and the link-style lines
above and below an edge are replaced; repeating either changes nothing.
-/
theorem update_idempotent_of_rewritten_lines :
    (∃ d d' : Diagram,
      Diagram.ofText "style B fill:#ff0000\nA --> B\nstyle B color:#00ff00" = .ok d ∧
      ({} : Editor).apply d (.updateNode "B" "Bee" (.known .circle) {}) =
        .ok (.changed d' none) ∧
      d'.lines =
        ["style B stroke-width:1px,stroke:#000000,color:#000000,fill:#ffffff", "A --> B",
          "    B((Bee))"] ∧
      ({} : Editor).apply d' (.updateNode "B" "Bee" (.known .circle) {}) =
        .ok (.changed d' none)) ∧
    ∃ d d' : Diagram,
      Diagram.ofText "linkStyle 0 stroke:#ff0000\nA[One] --> B\nlinkStyle 0 color:#00ff00" =
        .ok d ∧
      ({} : Editor).apply d (.updateEdge "edge_A_B" "x" {}) = .ok (.changed d' none) ∧
      d'.lines = ["A[One] -->|x| B", "    linkStyle 0 stroke:#6b7280,color:#000000"] ∧
      ({} : Editor).apply d' (.updateEdge "edge_A_B" "x" {}) = .ok (.changed d' none) := by
  have hd :
      Diagram.ofText "style B fill:#ff0000\nA --> B\nstyle B color:#00ff00" =
        .ok {
          lines := ["style B fill:#ff0000", "A --> B", "style B color:#00ff00"]
          model := {
            nodes := [
              placeholder "A",
              { placeholder "B" with style := {
                  textColor := ⟨"#00ff00", rfl⟩
                  backgroundColor := ⟨"#ff0000", rfl⟩ } }]
            edges := [{ id := "edge_A_B", source := "A", target := "B" }] } } := by
    rfl
  have hrun :
      (Edit.changed?
          (({} : Editor).apply {
              lines := ["style B fill:#ff0000", "A --> B", "style B color:#00ff00"]
              model := {
                nodes := [
                  placeholder "A",
                  { placeholder "B" with style := {
                      textColor := ⟨"#00ff00", rfl⟩
                      backgroundColor := ⟨"#ff0000", rfl⟩ } }]
                edges := [{ id := "edge_A_B", source := "A", target := "B" }] } }
            (.updateNode "B" "Bee" (.known .circle) {}))).map (fun r => (r.1.lines, r.2)) =
        some (
          ["style B stroke-width:1px,stroke:#000000,color:#000000,fill:#ffffff", "A --> B",
            "    B((Bee))"],
          none) := by
    decide +kernel
  obtain ⟨⟨d', created⟩, hchanged, hgiven⟩ := Option.map_eq_some_iff.mp hrun
  obtain ⟨hwritten, rfl⟩ := Prod.mk.inj hgiven
  have h := Edit.changed?_eq_some_iff.mp hchanged
  have hd' :
      Diagram.ofText "linkStyle 0 stroke:#ff0000\nA[One] --> B\nlinkStyle 0 color:#00ff00" =
        .ok {
          lines := ["linkStyle 0 stroke:#ff0000", "A[One] --> B", "linkStyle 0 color:#00ff00"]
          model := {
            nodes := [placeholder "A", placeholder "B"]
            edges := [
              { id := "edge_A_B", source := "A", target := "B",
                style := {
                  lineColor := ⟨"#ff0000", rfl⟩
                  labelColor := ⟨"#00ff00", rfl⟩ } }] } } := by
    rfl
  have h' :
      ({} : Editor).apply {
          lines := ["linkStyle 0 stroke:#ff0000", "A[One] --> B", "linkStyle 0 color:#00ff00"]
          model := {
            nodes := [placeholder "A", placeholder "B"]
            edges := [
              { id := "edge_A_B", source := "A", target := "B",
                style := {
                  lineColor := ⟨"#ff0000", rfl⟩
                  labelColor := ⟨"#00ff00", rfl⟩ } }] } }
          (.updateEdge "edge_A_B" "x" {}) =
        .ok (.changed {
          lines := ["A[One] -->|x| B", "    linkStyle 0 stroke:#6b7280,color:#000000"]
          model := {
            nodes := [placeholder "A", placeholder "B"]
            edges := [{ id := "edge_A_B", source := "A", target := "B", label := "x" }] } }
          none) := by
    rfl
  exact
    ⟨⟨_, d', hd, h, hwritten, update_idempotent isIndent_default trivial hd h⟩,
      _, _, hd', h', rfl, update_idempotent isIndent_default trivial hd' h'⟩

end RepeatedUpdates

section WriteBack

variable {e : Editor} {d : Diagram} {n : Node} {shape : Shape}

theorem any_isStale_eq_false_iff_declaresAs
    {lines : List String} {id label : String} :
    lines.any (isStale id label shape) = false ↔
      ∀ line ∈ lines, declaresNode id line = true → declaresAs shape label line = true := by
  unfold isStale
  simp only [List.any_eq_false, Bool.and_eq_true, Bool.not_eq_true', not_and, Bool.not_eq_false]

/-- An update that cannot be written is refused. -/
theorem updateNode_of_unwritable
    {id label : String} {ref : ShapeRef} {style : NodeStyle}
    (hshape : ref.resolve = .ok shape)
    (hreadable : IsReadable d.lines)
    (hdeclared : d.lines.any (declaresNode id) = true)
    (hstale : d.lines.any (isStale id label shape) = true)
    (hread : nodeReadsBack id shape label = .ok false) :
    e.updateNode d id label ref style = .ok (.refused (.unwritableNodeLabel label shape)) := by
  have hwritten :
      ((d.lines.any fun line => declaresNode id line && !declaresAs shape label line) ||
        !d.lines.any (declaresNode id)) = true := by
    rw [Bool.or_eq_true]
    exact Or.inl hstale
  refine bind_eq_ok_iff.mpr ⟨shape, hshape,
    bind_eq_ok_iff.mpr ⟨(), checkReadable_eq_ok_iff.mpr hreadable, ?_⟩⟩
  dsimp only
  rw [if_pos hwritten, hdeclared, if_neg (by simp)]
  exact bind_eq_ok_iff.mpr ⟨false, hread, rfl⟩

variable (hd : d.IsReading) (hn : n ∈ d.model.declared)

include hd hn

/-- The shape of a declared node is one that was read of its brackets. -/
theorem exists_known_of_declared :
    ∃ shape, n.shape = .known shape := by
  obtain ⟨_, _, id, body, _, hplain⟩ := hd.reads.exists_nodeLine hn
  exact ⟨_, congrArg Node.shape hplain⟩

/-- The values of a declared node are read back unless the label breaks a line. -/
theorem nodeReadsBack_of_declared
    (hshape : n.shape = .known shape) :
    nodeReadsBack n.id shape n.label = .ok (!breaksLine n.label) := by
  obtain ⟨line, _, id, body, hkind, hplain⟩ := hd.reads.exists_nodeLine hn
  obtain rfl : n.id = id := congrArg Node.id hplain
  have hknown : ShapeRef.known (Shape.decode body).shape = .known shape :=
    (congrArg Node.shape hplain).symm.trans hshape
  have hdeclares : ∃ line, Line.Declares n.id shape n.label line :=
    ⟨line, body, hkind, ShapeRef.known.inj hknown, (congrArg Node.label hplain).symm⟩
  have hid := (isIdentifier_iff.mp (isIdentifier_of_classify_node hkind)).2
  obtain ⟨readsBack, hread, hiff⟩ := nodeReadsBack_spec hid shape n.label
  rw [hread, Except.ok.injEq, Bool.eq_iff_iff, Bool.not_eq_true', hiff]
  exact and_iff_left hdeclares

theorem nodeReadsBack_of_writable
    (hshape : n.shape = .known shape)
    (hwritable : ¬(d.lines.any (isStale n.id n.label shape) && breaksLine n.label) = true)
    (hstale : d.lines.any (isStale n.id n.label shape) = true) :
    nodeReadsBack n.id shape n.label = .ok true := by
  rw [hstale, Bool.true_and, Bool.not_eq_true] at hwritable
  rw [nodeReadsBack_of_declared hd hn hshape, hwritable]
  rfl

theorem any_declaresNode_of_declared :
    d.lines.any (declaresNode n.id) = true := by
  rw [(isWellFormed_of_isReading hd).any_declaresNode_iff]
  exact List.mem_map_of_mem hn

/--
Writing back the values of a declared node: no style line is touched, and the model
stays.  Stale lines are written anew, unless the label breaks a line.
-/
theorem updateNode_writes_back
    (hshape : n.shape = .known shape) :
    e.updateNode d n.id n.label n.shape n.style =
      if d.lines.any (isStale n.id n.label shape) && breaksLine n.label then
        .ok (.refused (.unwritableNodeLabel n.label shape))
      else .ok (.changed ⟨d.lines.map (freshLine n.id n.label shape), d.model⟩ none) := by
  have hresolve : n.shape.resolve = .ok shape := by
    rw [hshape]
    rfl
  have hdeclared := any_declaresNode_of_declared hd hn
  split
  · rename_i hrefused
    rw [Bool.and_eq_true] at hrefused
    have hback := nodeReadsBack_of_declared hd hn hshape
    rw [hrefused.2] at hback
    exact updateNode_of_unwritable hresolve hd.readable hdeclared hrefused.1 hback
  · rename_i hwritable
    have hread := nodeReadsBack_of_writable hd hn hshape hwritable
    have hgives := givesNode_fresh hd.oneLine hread hdeclared
    have hstyle :
        Line.styleOf ((d.lines.map (freshLine n.id n.label shape)).map Line.classify) n.id =
          .ok n.style := by
      rw [hgives.same.styleOf_eq (by rintro _ ⟨_, rfl⟩; rfl)]
      exact hd.reads.styles n (List.mem_of_mem_filter hn)
    have hreadable : IsReadable (d.lines.map (freshLine n.id n.label shape)) := by
      intro line hline
      obtain ⟨old, hold, rfl⟩ := List.mem_map.mp hline
      rcases (freshLine_spec_of_mem hd.oneLine hread hold).2 with ⟨hsame, _⟩ | ⟨_, _, hkind, _⟩
      · rw [hsame]
        exact hd.readable old hold
      · rw [hkind]
        exact fun _ => Line.noConfusion
    have hself : (⟨n.id, n.label, shape, n.style, true⟩ : Node) = n := by
      rw [← hshape, ← declared_of_mem_declared hn]
    have hmodel := @map_redeclared_self d.model.declared n fun k hk hid =>
      hd.reads.eq_of_id_eq (List.mem_of_mem_filter hk) (List.mem_of_mem_filter hn) hid
    apply updateNode_of_declared hresolve hd.readable hdeclared hread
    · exact writeNodeStyle_self hreadable hstyle
        (NodeStyle.agrees_iff.mpr ⟨rfl, rfl, rfl, rfl, rfl⟩)
    · rw [hself, hmodel]
      exact rebuild_self hd.reads.completeNodes_self _

/-- Text that stays is the text of lines that stay, none of which is stale. -/
theorem any_isStale_of_text_eq
    (hshape : n.shape = .known shape)
    (hwritable : ¬(d.lines.any (isStale n.id n.label shape) && breaksLine n.label) = true)
    (htext :
      joinLines (d.lines.map (freshLine n.id n.label shape)) = joinLines d.lines) :
    d.lines.any (isStale n.id n.label shape) = false := by
  have hread := nodeReadsBack_of_writable hd hn hshape hwritable
  have hdeclared := any_declaresNode_of_declared hd hn
  have hgives := givesNode_fresh hd.oneLine hread hdeclared
  have hlines :
      d.lines.map (freshLine n.id n.label shape) = d.lines := by
    have hne := ne_singleton_of_declaresNode hgives.any_declaresNode
    rw [← splitLines_joinLines hgives.oneLine hne, htext,
      splitLines_joinLines hd.oneLine (ne_singleton_of_declaresNode hdeclared)]
  exact (map_freshLine_eq_self_iff hd.oneLine hread).mp hlines

end WriteBack

/--
Writing back the values of a declared node leaves the text as it is if and only if
every node line of the node declares its shape and its label.  Otherwise the other
lines are written anew with these, or the update is refused if the label breaks a
line; in no case does the model change or a style line.
-/
theorem writes_back_iff
    {e : Editor} {text : String} {d : Diagram} {n : Node}
    (hd : Diagram.ofText text = .ok d)
    (hn : n ∈ d.model.declared) :
    ∃ shape, n.shape = .known shape ∧
      ((∃ d' created,
          e.apply d (.updateNode n.id n.label n.shape n.style) = .ok (.changed d' created) ∧
            d'.text = d.text) ↔
        ∀ line ∈ d.lines, declaresNode n.id line = true → declaresAs shape n.label line = true) ∧
      e.apply d (.updateNode n.id n.label n.shape n.style) =
        if d.lines.any (isStale n.id n.label shape) && breaksLine n.label then
          .ok (.refused (.unwritableNodeLabel n.label shape))
        else .ok (.changed ⟨d.lines.map (freshLine n.id n.label shape), d.model⟩ none) := by
  have hread := isReading_of_ofText hd
  obtain ⟨shape, hshape⟩ := exists_known_of_declared hread hn
  have happly :
      e.apply d (.updateNode n.id n.label n.shape n.style) = _ :=
    updateNode_writes_back hread hn hshape
  refine ⟨shape, hshape, ?_, happly⟩
  rw [← any_isStale_eq_false_iff_declaresAs]
  constructor
  · rintro ⟨d', created, hchanged, htext⟩
    rw [happly] at hchanged
    split at hchanged
    · cases hchanged
    · rename_i hwritable
      cases hchanged
      exact any_isStale_of_text_eq hread hn hshape hwritable htext
  · intro hstale
    refine ⟨d, none, ?_, rfl⟩
    rw [happly, hstale, map_freshLine_of_not_stale hstale]
    rfl

/-- A node that is declared twice alike, its style spread over two lines, stays as it is. -/
theorem writes_back_of_overlaid_styles :
    ∃ (d : Diagram) (n : Node),
      Diagram.ofText "\tA{x};\nstyle A fill:#ff0000\n  A{x}\nstyle A color:#00ff00" = .ok d ∧
      n ∈ d.model.declared ∧
      n.style ≠ {} ∧
      ∃ d' created,
        ({} : Editor).apply d (.updateNode n.id n.label n.shape n.style) =
          .ok (.changed d' created) ∧
        d'.text = d.text := by
  have hd :
      Diagram.ofText "\tA{x};\nstyle A fill:#ff0000\n  A{x}\nstyle A color:#00ff00" =
        .ok {
          lines := ["\tA{x};", "style A fill:#ff0000", "  A{x}", "style A color:#00ff00"]
          model := {
            nodes := [⟨"A", "x", Shape.rhombus, {
              textColor := ⟨"#00ff00", rfl⟩
              backgroundColor := ⟨"#ff0000", rfl⟩ }, true⟩]
            edges := [] } } := by
    rfl
  obtain ⟨shape, hshape, hiff, _⟩ :=
    @writes_back_iff {} _ _ _ hd (List.mem_singleton_self _)
  cases hshape
  exact ⟨_, _, hd, List.mem_singleton_self _, by decide, hiff.mpr (by decide +kernel)⟩

/-- An earlier declaration that another one supersedes is written anew with the values read. -/
theorem writes_back_changes_superseded_line :
    ∃ (d d' : Diagram) (n : Node),
      Diagram.ofText "A[x]\nA[y]" = .ok d ∧
      n ∈ d.model.declared ∧
      ({} : Editor).apply d (.updateNode n.id n.label n.shape n.style) =
        .ok (.changed d' none) ∧
      d.text = "A[x]\nA[y]" ∧
      d'.text = "A[y]\nA[y]" ∧
      d'.text ≠ d.text := by
  have hd :
      Diagram.ofText "A[x]\nA[y]" =
        .ok {
          lines := ["A[x]", "A[y]"]
          model := { nodes := [⟨"A", "y", Shape.rectangle, {}, true⟩], edges := [] } } := by
    rfl
  have h :
      ({} : Editor).apply {
          lines := ["A[x]", "A[y]"]
          model := { nodes := [⟨"A", "y", Shape.rectangle, {}, true⟩], edges := [] } }
          (.updateNode "A" "y" (.known .rectangle) {}) =
        .ok (.changed {
          lines := ["A[y]", "A[y]"]
          model := { nodes := [⟨"A", "y", Shape.rectangle, {}, true⟩], edges := [] } }
          none) := by
    rfl
  exact ⟨_, _, _, hd, List.mem_singleton_self _, h, rfl, rfl, by decide⟩

end Flowchart
