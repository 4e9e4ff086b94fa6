import Flowchart.Proofs.EditFaults
import Flowchart.Proofs.UntargetedLines

/-!
# Saved texts

A text is saved as its lines joined, and loaded by splitting it.  Along every run of
edits this gives the same lines again, with one exception: a single empty line is an
empty text, which has no line at all.  A deletion can leave that line behind.  What
is saved can always be loaded, since edits keep lines readable and widths finite.

* `isLegible_step`: every edit keeps a diagram legible.
* `run_reads_back_lines`: what is loaded after a run.
-/

namespace Flowchart

open Edit Text

theorem nodeIds_rebuild
    {declared previous : List Node} {edges : List Edge} {lines : List String} {m : Model}
    (h : rebuild declared edges previous lines = .ok m) :
    m.nodeIds = (completeNodes declared edges previous).map (·.id) := by
  refine map_eq_map_of_forall₂ (mapM_eq_ok_iff.mp (rebuild_eq_ok_iff.mp h).1) ?_
  intro n _ n' hn
  rw [← n'.plain_id, plain_of_keepOrStyle hn, n.plain_id]

theorem of_mem_endpoints_set
    {edges : List Edge} {position : Nat} {edge : Edge} {id : String}
    (h : id ∈ endpoints (edges.set position edge)) :
    id ∈ endpoints edges ∨ id = edge.source ∨ id = edge.target := by
  obtain ⟨other, hother, hend⟩ := mem_endpoints.mp h
  rcases List.mem_or_eq_of_mem_set hother with hother | rfl
  · exact Or.inl (mem_endpoints.mpr ⟨other, hother, hend⟩)
  · exact Or.inr (hend.imp Eq.symm Eq.symm)

/-- A rebuilt model is legible with its lines if all that it keeps was. -/
theorem isLegible_rebuild
    {declared previous : List Node} {edges : List Edge} {lines : List String} {m : Model}
    (hreadable : IsReadable lines)
    (hnamed :
      ∀ id, id ∈ declared.map (·.id) ∨ id ∈ endpoints edges → isIdentifier id.toList = true)
    (hstyle : ∀ n ∈ declared, n.id ∉ previous.map (·.id) → n.style = {})
    (hfinite :
      ∀ id ∈ previous.map (·.id), id ∈ declared.map (·.id) ∨ id ∈ endpoints edges →
        Line.HasFiniteWidths id (lines.map Line.classify))
    (hused :
      ∀ id ∈ NodeId.used lines,
        (id ∈ declared.map (·.id) ∨ id ∈ endpoints edges) ∨
          Line.HasFiniteWidths id (lines.map Line.classify))
    (h : rebuild declared edges previous lines = .ok m) :
    (Diagram.mk lines m).IsLegible := by
  have hids :
      ∀ id, id ∈ m.nodeIds ↔ id ∈ declared.map (·.id) ∨ id ∈ endpoints edges := by
    intro id
    rw [nodeIds_rebuild h]
    exact mem_map_id_completeNodes
  have hknown :
      ∀ id, id ∈ declared.map (·.id) ∨ id ∈ endpoints edges →
        Line.HasFiniteWidths id (lines.map Line.classify) := by
    intro id hid
    by_cases hprevious : id ∈ previous.map (·.id)
    · exact hfinite id hprevious hid
    · rcases rebuild_cases hreadable hstyle with ⟨_, hnew⟩ | ⟨hfault, _⟩
      · exact hnew id hid hprevious
      · rw [h] at hfault
        cases hfault
  constructor
  · exact hreadable
  · intro id hid
    exact hnamed id ((hids id).mp hid)
  · rintro id (hid | hid)
    · exact hknown id ((hids id).mp hid)
    · exact (hused id hid).elim (hknown id) fun h => h

section Edits

variable {e : Editor} {d d' : Diagram} {created : Option String}

theorem Diagram.IsLegible.isIdentifier_of_kept
    (hd : d.IsLegible)
    (hwell : d.IsWellFormed)
    {id : String}
    (h : id ∈ d.model.declared.map (·.id) ∨ id ∈ endpoints d.model.edges) :
    isIdentifier id.toList = true :=
  hd.named id (h.elim mem_nodeIds_of_mem_declared hwell.mem_nodeIds_of_mem_endpoints)

/-- The ids in use after a creation are those before and those of the new line. -/
theorem mem_used_created
    (he : e.WritesLines)
    (d : Diagram)
    {line id : String} :
    id ∈ NodeId.used (append (e.startLines d) line) ↔
      id ∈ NodeId.used d.lines ∨ id ∈ NodeId.mentioned (Line.classify line) := by
  have hextends := extends_created he d line
  have hline : NodeId.mentioned (Line.classify line) = [Line.classify line].flatMap _ :=
    (List.flatMap_singleton _ _).symm
  rw [NodeId.mem_used_iff_edges, NodeId.mem_used_iff_edges, hextends.declarations,
    hextends.edges, hline, NodeId.mem_mentioned_iff, List.map_append, List.map_append,
    endpoints_append, List.mem_append, List.mem_append]
  exact or_or_or_comm

section Creation

variable (he : e.WritesLines) (hwell : d.IsWellFormed) (hd : d.IsLegible)

include he hd

/-- A model rebuilt for a further line that is no style line is legible with the lines. -/
theorem isLegible_created
    {line : String} {declared : List Node} {edges : List Edge} {m : Model}
    (hline : ∀ size, Line.classify line ≠ .overlong size)
    (hnone : ∀ id, Line.nodeProperties id [Line.classify line] = [])
    (hnamed :
      ∀ id, id ∈ declared.map (·.id) ∨ id ∈ endpoints edges → isIdentifier id.toList = true)
    (hstyle : ∀ n ∈ declared, n.id ∉ d.model.nodeIds → n.style = {})
    (hmentioned :
      ∀ id ∈ NodeId.mentioned (Line.classify line),
        id ∈ declared.map (·.id) ∨ id ∈ endpoints edges)
    (h : rebuild declared edges d.model.nodes (append (e.startLines d) line) = .ok m) :
    (Diagram.mk (append (e.startLines d) line) m).IsLegible := by
  have hsame := hasFiniteWidths_created he (d := d) hnone
  refine isLegible_rebuild (isReadable_append (isReadable_startLines he hd.readable) hline) hnamed
    hstyle ?_ ?_ h
  · exact fun id hid _ => (hsame id).mpr (hd.finite id (Or.inl hid))
  · intro id hid
    rcases (mem_used_created he d).mp hid with hid | hid
    · exact Or.inr ((hsame id).mpr (hd.finite id (Or.inr hid)))
    · exact Or.inl (hmentioned id hid)

include hwell

theorem isLegible_createNode
    {ref : ShapeRef} {given : Option String}
    (h : e.createNode d ref given = .ok (.changed d' created)) :
    d'.IsLegible := by
  obtain ⟨shape, id, body, line, _, _, _, _, hkind, _, hlines, hmodel, _⟩ := createNode_spec he h
  obtain ⟨lines, m⟩ := d'
  dsimp only at hlines hmodel
  subst hlines
  apply isLegible_created he hd _ _ _ _ _ hmodel
  · rw [hkind]
    exact fun _ => Line.noConfusion
  · rw [hkind]
    exact fun _ => rfl
  · intro other hother
    rw [List.map_append, List.mem_append, or_right_comm] at hother
    rcases hother with hother | hother
    · exact hd.isIdentifier_of_kept hwell hother
    · rw [List.mem_singleton.mp hother]
      exact isIdentifier_of_classify_node hkind
  · intro n hn hnew
    rcases List.mem_append.mp hn with hn | hn
    · exact absurd (List.mem_map_of_mem (List.mem_of_mem_filter hn)) hnew
    · rw [List.mem_singleton.mp hn]
  · rw [hkind]
    intro other hother
    rw [List.mem_singleton.mp hother]
    simp

theorem isLegible_createEdge
    {source target : Option String}
    (h : e.createEdge d source target = .ok (.changed d' created)) :
    d'.IsLegible := by
  obtain ⟨_, _, _, rfl, rfl, hs, ht, _⟩ := createEdge_eq_changed h
  obtain ⟨s, t, edge, line, hsource, htarget, hedge, _, _, hkind, hlines, hmodel, _⟩ :=
    createEdge_spec he h
  cases hsource
  cases htarget
  obtain ⟨lines, m⟩ := d'
  dsimp only at hlines hmodel
  subst hlines hedge
  apply isLegible_created he hd _ _ _ _ _ hmodel
  · rw [hkind]
    exact fun _ => Line.noConfusion
  · rw [hkind]
    exact fun _ => rfl
  · intro other hother
    rw [endpoints_append, List.mem_append, ← or_assoc] at hother
    rcases hother with hother | hother
    · exact hd.isIdentifier_of_kept hwell hother
    · obtain ⟨edge, hedge, hend⟩ := mem_endpoints.mp hother
      rw [List.mem_singleton.mp hedge] at hend
      rcases hend with rfl | rfl
      · exact hs
      · exact ht
  · exact fun n hn hnew =>
      absurd (mem_nodeIds_of_mem_declared (List.mem_map_of_mem hn)) hnew
  · rw [hkind]
    intro other hother
    rw [endpoints_append]
    exact Or.inr (List.mem_append_right _ hother)

end Creation

section Update

variable (he : IsIndent e.indent) (hwell : d.IsWellFormed) (hd : d.IsLegible)

include he hwell hd

theorem isLegible_updateNode
    {id label : String} {ref : ShapeRef} {style : NodeStyle}
    (h : e.updateNode d id label ref style = .ok (.changed d' created)) :
    d'.IsLegible := by
  obtain ⟨_, _, _, _, hknown, _⟩ := updateNode_eq_changed h
  have hid := mem_nodeIds_of_updated hwell hknown
  obtain ⟨shape, written, _, hnode, hstyle, hmodel⟩ := updateNode_gives he hwell.oneLine h
  rw [redeclared_eq_declare (n := ⟨id, label, shape, style, true⟩) hwell.any_declaresNode_iff]
    at hmodel
  have hkept :
      ∀ other,
        other ∈ (Reading.declare d.model.declared ⟨id, label, shape, style, true⟩).map (·.id) ∨
          other ∈ endpoints d.model.edges → other ∈ d.model.nodeIds := by
    intro other hother
    rw [Reading.mem_map_id_declare] at hother
    rcases hother with (hother | rfl) | hother
    · exact mem_nodeIds_of_mem_declared hother
    · exact hid
    · exact hwell.mem_nodeIds_of_mem_endpoints hother
  have hused : ∀ other ∈ NodeId.used d'.lines, other ∈ NodeId.used d.lines ∨ other = id := by
    intro other hother
    rw [NodeId.mem_used_iff, ← Reading.mem_map_id_declaredNodes,
      hstyle.same.declaredNodes_eq (by rintro _ ⟨_, rfl⟩; rfl), hnode.declared,
      Reading.mem_map_id_declare, Reading.mem_map_id_declaredNodes,
      hstyle.same.modelEdges_eq (by rintro _ ⟨_, rfl⟩; rfl) (by rintro _ ⟨_, rfl⟩ _; rfl),
      hnode.same.modelEdges_eq (by rintro _ ⟨_, rfl⟩; rfl) (by rintro _ ⟨_, rfl⟩ _; rfl),
      or_right_comm, ← NodeId.mem_used_iff] at hother
    exact hother
  have hfinite :
      ∀ other, other ∈ d.model.nodeIds ∨ other ∈ NodeId.used d'.lines →
        Line.HasFiniteWidths other (d'.lines.map Line.classify) := by
    intro other hother
    by_cases hsame : other = id
    · obtain ⟨s, hs, _⟩ := hstyle.given
      rw [hsame]
      exact Line.hasFiniteWidths_of_styleOf hs
    · have hproperties :
          Line.nodeProperties other (d'.lines.map Line.classify) =
            Line.nodeProperties other (d.lines.map Line.classify) := by
        rw [hstyle.same.nodeProperties_eq (by
            rintro _ ⟨_, rfl⟩
            simp [Line.nodeProperties, Ne.symm hsame]),
          hnode.same.nodeProperties_eq (by rintro _ ⟨_, rfl⟩; rfl)]
      rw [Line.hasFiniteWidths_congr hproperties]
      refine hd.finite other (hother.imp_right fun hother => ?_)
      exact (hused other hother).resolve_right hsame
  refine isLegible_rebuild hstyle.readable (fun other hother => hd.named other (hkept other hother))
    ?_ (fun other hother _ => hfinite other (Or.inl hother))
    (fun other hother => Or.inr (hfinite other (Or.inr hother))) hmodel
  intro n hn hnew
  exact absurd (hkept n.id (Or.inl (List.mem_map_of_mem hn))) hnew

theorem isLegible_updateEdge
    {id label : String} {style : EdgeStyle}
    (h : e.updateEdge d id label style = .ok (.changed d' created)) :
    d'.IsLegible := by
  obtain ⟨edge, l, line, hedge, _, hsource, htarget, _, hgives, hmodel⟩ :=
    updateEdge_gives he hwell.oneLine h
  have hids : d'.model.nodeIds = d.model.nodeIds := by
    rw [hmodel]
    rfl
  have hends := hwell.ends edge (List.mem_of_find?_eq_some hedge)
  rw [← hsource, ← htarget] at hends
  constructor
  · exact hgives.readable
  · rw [hids]
    exact hd.named
  · intro other hother
    rw [Line.hasFiniteWidths_congr
      (hgives.same.nodeProperties_eq (by rintro _ (⟨_, rfl⟩ | ⟨_, rfl⟩) <;> rfl))]
    apply hd.finite
    rw [hids] at hother
    rcases hother with hother | hother
    · exact Or.inl hother
    · rw [NodeId.mem_used_iff_edges, hgives.edges, ← Reading.mem_map_id_declaredNodes,
        hgives.same.declaredNodes_eq (by rintro _ (⟨_, rfl⟩ | ⟨_, rfl⟩) <;> rfl),
        Reading.mem_map_id_declaredNodes] at hother
      rw [List.map_set] at hother
      rcases hother with hother | hother
      · exact Or.inr (NodeId.mem_used_iff_edges.mpr (Or.inl hother))
      · rcases of_mem_endpoints_set hother with hother | rfl | rfl
        · exact Or.inr (NodeId.mem_used_iff_edges.mpr (Or.inr hother))
        · exact Or.inl hends.1
        · exact Or.inl hends.2

end Update

section Deletion

variable (hwell : d.IsWellFormed) (hd : d.IsLegible)

include hd

/-- A model rebuilt for lines that are left is legible with them. -/
theorem isLegible_left
    {declared previous : List Node} {edges : List Edge} {lines : List String} {m : Model}
    (hreadable : IsReadable lines)
    (hprevious : ∀ id ∈ previous.map (·.id), id ∈ d.model.nodeIds)
    (hdeclared : ∀ n ∈ declared, n.id ∈ previous.map (·.id))
    (hends : ∀ id ∈ endpoints edges, id ∈ previous.map (·.id))
    (hused : ∀ id ∈ NodeId.used lines, id ∈ NodeId.used d.lines)
    (hwidths :
      ∀ id, Line.HasFiniteWidths id (d.lines.map Line.classify) →
        Line.HasFiniteWidths id (lines.map Line.classify))
    (h : rebuild declared edges previous lines = .ok m) :
    (Diagram.mk lines m).IsLegible := by
  refine isLegible_rebuild hreadable ?_ (fun n hn hnew => absurd (hdeclared n hn) hnew) ?_ ?_ h
  · rintro id (hid | hid)
    · obtain ⟨n, hn, rfl⟩ := List.mem_map.mp hid
      exact hd.named n.id (hprevious _ (hdeclared n hn))
    · exact hd.named id (hprevious id (hends id hid))
  · exact fun id hid _ => hwidths id (hd.finite id (Or.inl (hprevious id hid)))
  · exact fun id hid => Or.inr (hwidths id (hd.finite id (Or.inr (hused id hid))))

include hwell

theorem isLegible_deleteNode
    {id : String}
    (h : Editor.deleteNode d id = .ok (.changed d' created)) :
    d'.IsLegible := by
  obtain ⟨_, _, rfl, hlines, hmodel⟩ := deleteNode_eq_changed h
  have hkinds := classify_deleted hlines
  apply isLegible_left hd _ _ _ _ _ _ hmodel
  · intro line hline
    rw [hlines] at hline
    exact LinkStyle.isReadable_dropFrom (nonneg_positionsAt id d.lines) hd.readable 0 line
      (List.mem_of_mem_filter hline)
  · intro other hother
    obtain ⟨n, hn, rfl⟩ := List.mem_map.mp hother
    exact List.mem_map_of_mem (List.mem_of_mem_filter hn)
  · exact fun n hn => mem_kept_of_mem_declared hn
  · exact fun other hend => hwell.mem_kept_of_mem_endpoints hend
  · intro other hother
    rw [NodeId.mem_used_iff, hkinds, declarations_withoutNode, modelEdges_withoutNode_eq,
      endpoints_renumberEdges] at hother
    rw [NodeId.mem_used_iff]
    exact hother.imp (List.filter_sublist.map _).mem
      (endpoints_subset fun _ hedge => (LinkStyle.keepOff_sublist _ _ _).mem hedge)
  · intro other hfinite
    by_cases hsame : other = id
    · intro properties hstyle
      rw [hkinds, hsame] at hstyle
      simpa [Line.isOf] using (List.mem_filter.mp hstyle).2
    · rw [hkinds, Line.hasFiniteWidths_congr
        (nodeProperties_withoutNode (bne_iff_ne.mpr hsame) d.lines)]
      exact hfinite

theorem isLegible_deleteEdge
    {id : String} {source target label : Option String}
    (h : Editor.deleteEdge d id source target label = .ok (.changed d' created)) :
    d'.IsLegible := by
  obtain ⟨_, _, l, _, _, _, _, hlines, hmodel⟩ := deleteEdge_eq_changed h
  have hpositions := nonneg_singleton l.position
  have hkinds :
      d'.lines.map Line.classify =
        LinkStyle.dropKinds [(l.position : Int)] 0 (d.lines.map Line.classify) := by
    rw [hlines]
    exact LinkStyle.map_classify_dropFrom hpositions 0 d.lines
  apply isLegible_left hd _ _ _ _ _ _ hmodel
  · rw [hlines]
    exact LinkStyle.isReadable_dropFrom hpositions hd.readable 0
  · exact fun _ hother => hother
  · exact fun n hn => List.mem_map_of_mem (List.mem_of_mem_filter hn)
  · exact fun other hend => hwell.mem_nodeIds_of_mem_endpoints_eraseIdx hend
  · intro other hother
    rw [NodeId.mem_used_iff, hkinds, LinkStyle.declarations_dropKinds,
      LinkStyle.modelEdges_dropKinds, endpoints_renumberEdges] at hother
    rw [NodeId.mem_used_iff]
    exact hother.imp_right
      (endpoints_subset fun _ hedge => (LinkStyle.keepOff_sublist _ _ _).mem hedge)
  · intro other hfinite
    rw [hkinds, Line.hasFiniteWidths_congr (LinkStyle.nodeProperties_dropKinds other _ _ _)]
    exact hfinite

end Deletion

/-- Every edit keeps a diagram legible. -/
theorem isLegible_step
    (he : e.WritesLines)
    (hwell : d.IsWellFormed)
    (hd : d.IsLegible)
    (edit : Edit) :
    (e.step d edit).IsLegible := by
  refine Editor.step_keeps ?_ hd edit
  intro edit d' created h
  cases edit with
  | createNode ref given =>
      exact isLegible_createNode he hwell hd h
  | createEdge source target =>
      exact isLegible_createEdge he hwell hd h
  | updateNode id label ref style =>
      exact isLegible_updateNode he.indent hwell hd h
  | updateEdge id label style =>
      exact isLegible_updateEdge he.indent hwell hd h
  | deleteNode id =>
      exact isLegible_deleteNode hwell hd h
  | deleteEdge id source target label =>
      exact isLegible_deleteEdge hwell hd h

section SavedLines

/-- The lines of an update declare a node. -/
theorem GivesNode.ne_singleton
    {n : Node} {lines written lines' : List String} {style : NodeStyle}
    (hnode : GivesNode n lines written)
    (hstyle : GivesStyle n.id style written lines') :
    lines' ≠ [""] :=
  ne_singleton_of_declaresNode (hnode.any_declaresNode_of_styled hstyle)

/-- Only a deletion leaves a single empty line. -/
theorem step_ne_singleton
    {edit : Edit}
    (he : e.WritesLines)
    (hwell : d.IsWellFormed)
    (hedit : edit.deletes = false)
    (hne : d.lines ≠ [""]) :
    (e.step d edit).lines ≠ [""] := by
  unfold Editor.step
  cases h : e.apply d edit with
  | error fault =>
      exact hne
  | ok outcome =>
      cases outcome with
      | refused problem =>
          exact hne
      | changed d' created =>
          change d'.lines ≠ [""]
          cases edit with
          | createNode ref given =>
              obtain ⟨_, _, _, _, _, _, _, _, hkind, _, hlines, _⟩ := createNode_spec he h
              rw [hlines]
              exact append_ne_singleton (by rw [hkind]; exact fun _ => Line.noConfusion) _
          | createEdge source target =>
              obtain ⟨_, _, _, _, _, _, _, _, _, hkind, hlines, _⟩ := createEdge_spec he h
              rw [hlines]
              exact append_ne_singleton (by rw [hkind]; exact fun _ => Line.noConfusion) _
          | updateNode id label ref style =>
              obtain ⟨_, _, _, hnode, hstyle, _⟩ :=
                updateNode_gives he.indent hwell.oneLine h
              exact hnode.ne_singleton hstyle
          | updateEdge id label style =>
              obtain ⟨_, _, _, _, _, _, _, _, hgives, _⟩ :=
                updateEdge_gives he.indent hwell.oneLine h
              exact hgives.ne_singleton
          | deleteNode id =>
              cases hedit
          | deleteEdge id source target label =>
              cases hedit

/-- Diagrams stay well formed and legible along every run. -/
theorem run_isLegible
    (he : e.WritesLines)
    (hwell : d.IsWellFormed)
    (hd : d.IsLegible)
    (edits : List Edit) :
    (e.run d edits).IsWellFormed ∧ (e.run d edits).IsLegible :=
  Editor.run_keeps (P := fun d => d.IsWellFormed ∧ d.IsLegible)
    (fun _ edit h => ⟨isWellFormed_step he h.1 edit, isLegible_step he h.1 h.2 edit⟩)
    ⟨hwell, hd⟩ edits

/-- A run without deletions does not end with a single empty line. -/
theorem run_ne_singleton
    {edits : List Edit}
    (he : e.WritesLines)
    (hwell : d.IsWellFormed)
    (hne : d.lines ≠ [""])
    (hedits : ∀ edit ∈ edits, edit.deletes = false) :
    (e.run d edits).lines ≠ [""] := by
  induction edits generalizing d with
  | nil =>
      exact hne
  | cons edit edits ih =>
      rw [List.forall_mem_cons] at hedits
      exact ih (isWellFormed_step he hwell edit) (step_ne_singleton he hwell hedits.1 hne) hedits.2

end SavedLines

end Edits

theorem splitLines_ne_singleton
    (text : String) :
    splitLines text ≠ [""] := by
  intro h
  have hempty : text = "" := by
    rw [← joinLines_splitLines text, h]
    rfl
  rw [hempty] at h
  cases h

/-- The lines of a text are its lines again unless one empty line is all there is. -/
theorem splitLines_text_iff
    {d : Diagram}
    (h : ∀ line ∈ d.lines, IsOneLine line) :
    splitLines d.text = d.lines ↔ d.lines ≠ [""] := by
  constructor
  · intro hsplit hlines
    exact splitLines_ne_singleton d.text (hsplit.trans hlines)
  · exact splitLines_joinLines h

/-- The text of a legible diagram can be read. -/
theorem Diagram.IsLegible.ofText_text
    {d : Diagram}
    (h : d.IsLegible)
    (honeLine : ∀ line ∈ d.lines, IsOneLine line) :
    ∃ r, Diagram.ofText d.text = .ok r := by
  have hlines : ∃ r, Reading.ofLines (splitLines d.text) = .ok r := by
    rw [ofLines_succeeds_iff]
    by_cases hne : d.lines = [""]
    · have hsplit : splitLines d.text = [] := by
        unfold Diagram.text
        rw [hne]
        rfl
      rw [hsplit]
      exact ⟨fun _ hline => absurd hline List.not_mem_nil,
        fun _ hid => absurd hid List.not_mem_nil⟩
    · rw [(splitLines_text_iff honeLine).mpr hne]
      exact ⟨h.readable, fun id hid => h.finite id (Or.inr hid)⟩
  obtain ⟨r, hr⟩ := hlines
  exact ⟨r.diagram, bind_eq_ok_iff.mpr ⟨r, hr, rfl⟩⟩

/--
After every run the text can be read again, and its lines are those of the diagram
unless one empty line is all there is; then it has no line.  Only runs in which
something is deleted can end so.
-/
theorem run_reads_back_lines
    {text : String} {d : Diagram}
    (hd : Diagram.ofText text = .ok d)
    (edits : List Edit) :
    let d' := ({} : Editor).run d edits
    (splitLines d'.text = d'.lines ↔ d'.lines ≠ [""]) ∧
      (∃ r, Diagram.ofText d'.text = .ok r ∧ r.lines = splitLines d'.text ∧
        (r.lines = d'.lines ↔ d'.lines ≠ [""])) ∧
      (d'.lines = [""] → ∃ edit ∈ edits, edit.deletes = true) := by
  intro d'
  have hreading := isReading_of_ofText hd
  have hwell := isWellFormed_of_isReading hreading
  have he := Editor.writesLines_default
  obtain ⟨hwell', hlegible⟩ := run_isLegible he hwell (isLegible_of_isReading hreading) edits
  have hsplit := splitLines_text_iff hwell'.oneLine
  refine ⟨hsplit, ?_, ?_⟩
  · obtain ⟨r, hr⟩ := hlegible.ofText_text hwell'.oneLine
    have hlines := (ofText_eq_ok_iff.mp hr).1
    exact ⟨r, hr, hlines, by rw [hlines]; exact hsplit⟩
  · intro hempty
    by_contra hnone
    simp only [not_exists, not_and, Bool.not_eq_true] at hnone
    have hne : d.lines ≠ [""] := by
      rw [(ofText_eq_ok_iff.mp hd).1]
      exact splitLines_ne_singleton text
    exact run_ne_singleton he hwell hne hnone hempty

/-- A run that deletes the only node of a text with a header. -/
theorem run_reads_back_lines_of_header :
    ∃ d,
      let edits : List Edit := [.createEdge (some "A") (some "B"), .deleteNode "A"]
      Diagram.ofText "flowchart TD\n\nA[x]\n" = .ok d ∧
      (({} : Editor).run d edits).lines = ["flowchart TD", "", ""] ∧
      (splitLines (({} : Editor).run d edits).text = (({} : Editor).run d edits).lines ↔
        (({} : Editor).run d edits).lines ≠ [""]) ∧
      (∃ r, Diagram.ofText (({} : Editor).run d edits).text = .ok r ∧
        r.lines = splitLines (({} : Editor).run d edits).text ∧
        (r.lines = (({} : Editor).run d edits).lines ↔
          (({} : Editor).run d edits).lines ≠ [""])) ∧
      ((({} : Editor).run d edits).lines = [""] → ∃ edit ∈ edits, edit.deletes = true) := by
  have hd :
      Diagram.ofText "flowchart TD\n\nA[x]\n" =
        .ok {
          lines := ["flowchart TD", "", "A[x]", ""]
          model := { nodes := [{ id := "A", label := "x" }] } } := by
    rfl
  exact ⟨_, hd, by decide +kernel, run_reads_back_lines hd _⟩

/-- Without its only node a text of two lines is one empty line, which is saved as no line. -/
theorem run_loses_line :
    ∃ d,
      Diagram.ofText "\nA[x]" = .ok d ∧
      (({} : Editor).run d [.deleteNode "A"]).lines = [""] ∧
      splitLines (({} : Editor).run d [.deleteNode "A"]).text = [] := by
  have hd :
      Diagram.ofText "\nA[x]" =
        .ok { lines := ["", "A[x]"], model := { nodes := [{ id := "A", label := "x" }] } } := by
    rfl
  exact ⟨_, hd, by decide +kernel, by decide +kernel⟩

end Flowchart
