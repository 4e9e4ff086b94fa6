import Flowchart.Proofs.Incidence
import Flowchart.Proofs.ModelWriting
import Flowchart.Proofs.NodeLines
import Flowchart.Proofs.Runs

/-!
# Edits that fail

An edit of a diagram that was read is refused or changes the diagram, with one
exception.  Reading passes over the style lines of ids that no node has, and a
creation that gives such an id a node applies them.  If one of them gives a width
that would be rounded to infinity, the creation ends in that fault.

* `rebuild_cases`: a rebuilt model, or the fault of a new id.
* `apply_isAnswered`: what can come of an edit.
-/

namespace Flowchart

open Edit Text

section ReadableDiagrams

/--
A diagram with readable lines, in which nodes are named by identifiers and style
lines give finite widths to all nodes, of the text as well as of the model.
-/
structure Diagram.IsLegible (d : Diagram) : Prop where
  readable : IsReadable d.lines
  named : ∀ id ∈ d.model.nodeIds, isIdentifier id.toList = true
  finite :
    ∀ id, id ∈ d.model.nodeIds ∨ id ∈ NodeId.used d.lines →
      Line.HasFiniteWidths id (d.lines.map Line.classify)

theorem Line.hasFiniteWidths_congr
    {id : String} {kinds kinds' : List Line}
    (h : nodeProperties id kinds' = nodeProperties id kinds) :
    HasFiniteWidths id kinds' ↔ HasFiniteWidths id kinds := by
  rw [hasFiniteWidths_iff, hasFiniteWidths_iff, h]

/-- A diagram that was read is legible. -/
theorem isLegible_of_isReading
    {d : Diagram}
    (h : d.IsReading) :
    d.IsLegible where
  readable := h.readable
  named := by
    intro id hid
    obtain ⟨n, hn, rfl⟩ := List.mem_map.mp hid
    exact h.reads.isIdentifier_of_mem_nodes h.oneLine hn
  finite := by
    intro id hid
    have hmem : id ∈ d.model.nodeIds := by
      rcases hid with hid | hid
      · exact hid
      · rw [Reading.mem_used_iff_mem_plainNodes, ← h.reads.nodes, List.map_map] at hid
        exact hid
    obtain ⟨n, hn, rfl⟩ := List.mem_map.mp hmem
    exact Line.hasFiniteWidths_of_styleOf (h.reads.styles n hn)

theorem mem_nodeIds_of_mem_declared
    {m : Model} {id : String}
    (h : id ∈ m.declared.map (·.id)) :
    id ∈ m.nodeIds := by
  obtain ⟨n, hn, rfl⟩ := List.mem_map.mp h
  exact List.mem_map_of_mem (List.mem_of_mem_filter hn)

theorem Diagram.IsWellFormed.mem_nodeIds_of_mem_endpoints
    {d : Diagram} {id : String}
    (hd : d.IsWellFormed)
    (h : id ∈ endpoints d.model.edges) :
    id ∈ d.model.nodeIds := by
  obtain ⟨edge, hedge, rfl | rfl⟩ := mem_endpoints.mp h
  · exact (hd.ends edge hedge).1
  · exact (hd.ends edge hedge).2

end ReadableDiagrams

section Rebuild

variable {declared previous : List Node} {edges : List Edge} {lines : List String}

theorem mem_completeNodes
    {n : Node}
    (h : n ∈ completeNodes declared edges previous) :
    n ∈ declared ∨
      n.id ∈ endpoints edges ∧ (n ∈ previous ∨ n = placeholder n.id) := by
  rw [completeNodes_eq] at h
  rcases List.mem_append.mp h with h | h
  · exact Or.inl h
  · obtain ⟨id, hid, rfl⟩ := List.mem_map.mp h
    rw [former_id]
    exact Or.inr ⟨(mem_newEnds.mp hid).1, (former_spec previous id).2.2⟩

/-- The ids of a rebuilt model are those of the declared nodes and the ends of the edges. -/
theorem mem_map_id_completeNodes
    {id : String} :
    id ∈ (completeNodes declared edges previous).map (·.id) ↔
      id ∈ declared.map (·.id) ∨ id ∈ endpoints edges := by
  have hformer : ∀ ids : List String, (ids.map (former previous)).map (·.id) = ids := by
    intro ids
    rw [List.map_map]
    exact (List.map_congr_left fun id _ => former_id previous id).trans (List.map_id ids)
  rw [completeNodes_eq, List.map_append, hformer, List.mem_append, mem_newEnds]
  tauto

variable (hreadable : IsReadable lines)

include hreadable

/-- A node that is new takes its style, or ends in the fault of an infinite width. -/
theorem keepOrStyle_cases
    {n : Node}
    (hstyle : n.id ∉ previous.map (·.id) → n.style = {}) :
    (∃ n', keepOrStyle previous lines n = .ok n') ∧
        (n.id ∉ previous.map (·.id) →
          Line.HasFiniteWidths n.id (lines.map Line.classify)) ∨
      keepOrStyle previous lines n = .error .infiniteWidth ∧ n.id ∉ previous.map (·.id) ∧
        ¬Line.HasFiniteWidths n.id (lines.map Line.classify) := by
  by_cases hmem : n.id ∈ previous.map (·.id)
  · exact Or.inl ⟨⟨n, keepOrStyle_of_mem hmem lines⟩, fun hnot => absurd hmem hnot⟩
  · rw [keepOrStyle_of_not_mem hmem]
    by_cases hfinite : Line.HasFiniteWidths n.id (lines.map Line.classify)
    · obtain ⟨s, hs⟩ := Line.styleOf_of_finite hfinite
      refine Or.inl ⟨⟨{ n with style := s }, ?_⟩, fun _ => hfinite⟩
      exact (styled_eq_ok_iff (hstyle hmem)).mpr ⟨hreadable, rfl, hs⟩
    · refine Or.inr ⟨?_, hmem, hfinite⟩
      have hstyled := Line.styleOf_of_infinite hfinite
      have hany : lines.any (stylesNode n.id) = true := by
        rw [← Bool.not_eq_false]
        intro hnone
        rw [Line.styleOf_of_nodeProperties (nodeProperties_eq_nil hnone)] at hstyled
        cases hstyled
      unfold styled
      rw [checkReadable_eq_ok_iff.mpr hreadable, hany]
      change nodeStyle lines n.id >>= _ = _
      have hnode : nodeStyle lines n.id = .error .infiniteWidth := hstyled
      rw [hnode]
      rfl

/-- A model is rebuilt, unless an id that is new is given an infinite width. -/
theorem rebuild_cases
    (hdeclared : ∀ n ∈ declared, n.id ∉ previous.map (·.id) → n.style = {}) :
    (∃ m, rebuild declared edges previous lines = .ok m) ∧
        (∀ id, id ∈ declared.map (·.id) ∨ id ∈ endpoints edges → id ∉ previous.map (·.id) →
          Line.HasFiniteWidths id (lines.map Line.classify)) ∨
      rebuild declared edges previous lines = .error .infiniteWidth ∧
        ∃ id, (id ∈ declared.map (·.id) ∨ id ∈ endpoints edges) ∧ id ∉ previous.map (·.id) ∧
          ¬Line.HasFiniteWidths id (lines.map Line.classify) := by
  have hstyle :
      ∀ n ∈ completeNodes declared edges previous, n.id ∉ previous.map (·.id) → n.style = {} := by
    intro n hn hnew
    rcases mem_completeNodes hn with hn | ⟨_, hn | hn⟩
    · exact hdeclared n hn hnew
    · exact absurd (List.mem_map_of_mem hn) hnew
    · rw [hn]
      rfl
  have hnodes :
      (∀ id, id ∈ declared.map (·.id) ∨ id ∈ endpoints edges → id ∉ previous.map (·.id) →
          Line.HasFiniteWidths id (lines.map Line.classify)) ↔
        ∀ n ∈ completeNodes declared edges previous, n.id ∉ previous.map (·.id) →
          Line.HasFiniteWidths n.id (lines.map Line.classify) := by
    simp only [← @mem_map_id_completeNodes declared previous edges, List.forall_mem_map]
  by_cases hfinite :
      ∀ id, id ∈ declared.map (·.id) ∨ id ∈ endpoints edges → id ∉ previous.map (·.id) →
        Line.HasFiniteWidths id (lines.map Line.classify)
  · refine Or.inl ⟨?_, hfinite⟩
    rw [hnodes] at hfinite
    obtain ⟨nodes, hok⟩ :=
      exists_mapM_eq_ok_iff.mpr fun n hn =>
        (keepOrStyle_cases hreadable (hstyle n hn)).elim And.left fun h =>
          absurd (hfinite n hn h.2.1) h.2.2
    exact ⟨⟨nodes, edges⟩, rebuild_eq_ok_iff.mpr ⟨hok, rfl⟩⟩
  · refine Or.inr ⟨?_, by push Not at hfinite; exact hfinite⟩
    rw [hnodes] at hfinite
    cases hrebuild : rebuild declared edges previous lines with
    | ok m =>
        exfalso
        apply hfinite
        intro n hn hnew
        obtain ⟨n', hn'⟩ :=
          exists_mapM_eq_ok_iff.mp ⟨m.nodes, (rebuild_eq_ok_iff.mp hrebuild).1⟩ n hn
        rcases keepOrStyle_cases hreadable (hstyle n hn) with ⟨_, h⟩ | ⟨h, _⟩
        · exact h hnew
        · rw [h] at hn'
          cases hn'
    | error fault =>
        rcases bind_eq_error_iff.mp hrebuild with h | ⟨_, _, h⟩
        · obtain ⟨n, hn, hfault⟩ := exists_of_mapM_eq_error h
          change keepOrStyle previous lines n = .error fault at hfault
          rcases keepOrStyle_cases hreadable (hstyle n hn) with ⟨⟨n', hn'⟩, _⟩ | ⟨h, _⟩
          · rw [hn'] at hfault
            cases hfault
          · rw [h] at hfault
            cases hfault
            rfl
        · cases h

/-- A model without new ids is rebuilt. -/
theorem rebuild_succeeds
    (hdeclared : ∀ n ∈ declared, n.id ∈ previous.map (·.id))
    (hends : ∀ id ∈ endpoints edges, id ∈ previous.map (·.id)) :
    ∃ m, rebuild declared edges previous lines = .ok m := by
  have hcases :=
    @rebuild_cases declared previous edges lines hreadable fun n hn hnew =>
      absurd (hdeclared n hn) hnew
  rcases hcases with ⟨h, _⟩ | ⟨_, id, hid | hid, hnew, _⟩
  · exact h
  · obtain ⟨n, hn, rfl⟩ := List.mem_map.mp hid
    exact absurd (hdeclared n hn) hnew
  · exact absurd (hends id hid) hnew

end Rebuild

section NewIds

theorem isWord_of_mem_toDigits
    {n : Nat} {c : Char}
    (h : c ∈ Nat.toDigits 10 n) :
    isWord c = true := by
  have hdigit := Nat.isDigit_of_mem_toDigits (by decide) (by decide) h
  have hrange := Char.isDigit_iff_toNat.mp hdigit
  have hascii : c.toNat < 0x80 := by
    have : '9'.toNat = 0x39 := rfl
    omega
  simp [isWord, hascii, Char.isAlphanum, hdigit]

/-- The next id is an identifier if its stem is one. -/
theorem isIdentifier_next
    {stem : String}
    (h : isIdentifier stem.toList = true)
    (lines : List String) :
    isIdentifier (NodeId.next lines stem).toList = true := by
  obtain ⟨hne, hall⟩ := isIdentifier_iff.mp h
  unfold NodeId.next
  rw [String.toList_append, Nat.toString_eq_repr, Nat.toList_repr, isIdentifier_iff]
  refine ⟨by simp [hne], ?_⟩
  intro c hc
  rcases List.mem_append.mp hc with hc | hc
  · exact hall c hc
  · exact isWord_of_mem_toDigits hc

end NewIds

/--
The answer to an edit that writes some ids: a refusal that leaves the diagram as it
is, a change if the text gives all of them finite widths, or the fault of a width.
-/
def Edit.IsAnswered (d : Diagram) (ids : List String) (answer : Except Fault Outcome) : Prop :=
  (∃ problem, answer = .ok (.refused problem) ∧ (Outcome.refused problem).after d = d) ∨
    ((∃ d' created, answer = .ok (.changed d' created)) ∧
      ∀ id ∈ ids, Line.HasFiniteWidths id (d.lines.map Line.classify)) ∨
    (answer = .error .infiniteWidth ∧
      ∃ id ∈ ids, ¬Line.HasFiniteWidths id (d.lines.map Line.classify))

section Edits

variable {e : Editor} {d : Diagram}

/-- A change that only waits for the rebuilt model is made, or ends in the fault of the model. -/
theorem isAnswered_bind
    {ids : List String} {model : Except Fault Model} {outcome : Model → Outcome}
    (houtcome : ∀ m, ∃ d' created, outcome m = .changed d' created)
    (h :
      (∃ m, model = .ok m) ∧
          (∀ id ∈ ids, Line.HasFiniteWidths id (d.lines.map Line.classify)) ∨
        model = .error .infiniteWidth ∧
          ∃ id ∈ ids, ¬Line.HasFiniteWidths id (d.lines.map Line.classify)) :
    Edit.IsAnswered d ids (model >>= fun m => .ok (outcome m)) := by
  rcases h with ⟨⟨m, rfl⟩, hfinite⟩ | ⟨rfl, hinfinite⟩
  · obtain ⟨d', created, hchanged⟩ := houtcome m
    exact Or.inr (Or.inl ⟨⟨d', created, congrArg Except.ok hchanged⟩, hfinite⟩)
  · exact Or.inr (Or.inr ⟨rfl, hinfinite⟩)

theorem isAnswered_of_succeeds
    {answer : Except Fault Outcome}
    (h : ∃ outcome, answer = .ok outcome) :
    Edit.IsAnswered d [] answer := by
  obtain ⟨outcome, rfl⟩ := h
  cases outcome with
  | refused problem =>
      exact Or.inl ⟨problem, rfl, rfl⟩
  | changed d' created =>
      exact Or.inr (Or.inl ⟨⟨d', created, rfl⟩, by simp⟩)

theorem isReadable_startLines
    (he : e.WritesLines)
    (hd : IsReadable d.lines) :
    IsReadable (e.startLines d) := by
  obtain ⟨keyword, direction, hheader⟩ := he.header
  unfold Editor.startLines
  split
  · intro line hline size
    rw [List.mem_singleton.mp hline, hheader]
    exact Line.noConfusion
  · exact hd

section Creation

variable (he : e.WritesLines) (hd : d.IsLegible)

include he hd

omit hd in
/-- A further line that is no style line leaves the widths as they are. -/
theorem hasFiniteWidths_created
    {line : String}
    (hnone : ∀ id, Line.nodeProperties id [Line.classify line] = [])
    (id : String) :
    Line.HasFiniteWidths id ((append (e.startLines d) line).map Line.classify) ↔
      Line.HasFiniteWidths id (d.lines.map Line.classify) := by
  apply Line.hasFiniteWidths_congr
  rw [(extends_created he d line).nodeProperties, hnone, List.append_nil]

/-- With a further line that is no style line, a model is rebuilt as the waiting styles allow. -/
theorem rebuild_created
    {line : String} {declared : List Node} {edges : List Edge} {ids : List String}
    (hline : ∀ size, Line.classify line ≠ .overlong size)
    (hnone : ∀ id, Line.nodeProperties id [Line.classify line] = [])
    (hdeclared : ∀ n ∈ declared, n.id ∉ d.model.nodeIds → n.style = {})
    (hids :
      ∀ id, id ∉ d.model.nodeIds →
        (id ∈ declared.map (·.id) ∨ id ∈ endpoints edges ↔ id ∈ ids)) :
    (∃ m, rebuild declared edges d.model.nodes (append (e.startLines d) line) = .ok m) ∧
        (∀ id ∈ ids, Line.HasFiniteWidths id (d.lines.map Line.classify)) ∨
      rebuild declared edges d.model.nodes (append (e.startLines d) line) =
          .error .infiniteWidth ∧
        ∃ id ∈ ids, ¬Line.HasFiniteWidths id (d.lines.map Line.classify) := by
  have hreadable := isReadable_append (isReadable_startLines he hd.readable) hline
  have hsame := hasFiniteWidths_created he (d := d) hnone
  rcases rebuild_cases hreadable hdeclared with ⟨hok, hfinite⟩ | ⟨herror, id, hid, hnew, hinfinite⟩
  · refine Or.inl ⟨hok, ?_⟩
    intro id hid
    by_cases hknown : id ∈ d.model.nodeIds
    · exact hd.finite id (Or.inl hknown)
    · exact (hsame id).mp (hfinite id ((hids id hknown).mpr hid) hknown)
  · exact Or.inr ⟨herror, id, (hids id hnew).mp hid, fun h => hinfinite ((hsame id).mpr h)⟩

theorem createNode_isAnswered
    (hwell : d.IsWellFormed)
    (hstem : isIdentifier e.stem.toList = true)
    (shape : Shape) (given : Option String) :
    Edit.IsAnswered d [NodeId.next (e.startLines d) e.stem]
      (e.createNode d (.known shape) given) := by
  have hid := (isIdentifier_iff.mp (isIdentifier_next hstem (e.startLines d))).2
  obtain ⟨readsBack, hread⟩ := nodeReadsBack_succeeds hid shape (given.getD e.label)
  rw [createNode_of_readsBack (isReadable_startLines he hd.readable) hread]
  cases readsBack with
  | false =>
      exact Or.inl ⟨_, rfl, rfl⟩
  | true =>
      obtain ⟨_, body, hkind, _⟩ := nodeReadsBack_eq_true hread
      have hkind := classify_nodeLine isIndent_default.blank he.indent.blank hkind (by simp)
      have hcases :=
        @rebuild_created _ _ he hd _
          (d.model.declared ++
            [⟨NodeId.next (e.startLines d) e.stem, given.getD e.label, shape, {}, true⟩])
          d.model.edges [NodeId.next (e.startLines d) e.stem]
          (not_overlong_nodeLine he.indent.blank hid)
          (fun id => by rw [hkind]; rfl)
          (by
            intro n hn hnew
            rcases List.mem_append.mp hn with hn | hn
            · exact absurd (List.mem_map_of_mem (List.mem_of_mem_filter hn)) hnew
            · rw [List.mem_singleton.mp hn])
          (by
            intro id hnew
            have hdeclared : id ∉ d.model.declared.map (·.id) := fun h =>
              hnew (mem_nodeIds_of_mem_declared h)
            have hend : id ∉ endpoints d.model.edges := fun h =>
              hnew (hwell.mem_nodeIds_of_mem_endpoints h)
            simp [hdeclared, hend])
      exact isAnswered_bind (fun _ => ⟨_, _, rfl⟩) hcases

theorem createEdge_isAnswered
    (hwell : d.IsWellFormed)
    (source target : Option String) :
    Edit.IsAnswered d (source.toList ++ target.toList) (e.createEdge d source target) := by
  cases hsource : Editor.checkEnd source with
  | error problem =>
      refine Or.inl ⟨problem, ?_, rfl⟩
      simp [Editor.createEdge, hsource]
  | ok s =>
      cases htarget : Editor.checkEnd target with
      | error problem =>
          refine Or.inl ⟨problem, ?_, rfl⟩
          simp [Editor.createEdge, hsource, htarget]
      | ok t =>
          obtain ⟨rfl, hs⟩ := checkEnd_eq_ok hsource
          obtain ⟨rfl, ht⟩ := checkEnd_eq_ok htarget
          have hstart := isReadable_startLines he hd.readable
          have hkind : Line.classify (Edge.lineOf e.indent s t "") = .edge ⟨s, t, none, s, t⟩ :=
            classify_edgeLine he.indent.blank hs ht (by decide)
          have hcases :=
            @rebuild_created _ _ he hd _ d.model.declared
              (d.model.edges ++
                [⟨Edge.nextId d.model.edges s t, s, t, "",
                  edgeStyle (e.startLines d) d.model.edges.length⟩]) [s, t]
              (fun size => by rw [hkind]; exact Line.noConfusion)
              (fun id => by rw [hkind]; rfl)
              (fun n hn hnew =>
                absurd (mem_nodeIds_of_mem_declared (List.mem_map_of_mem hn)) hnew)
              (by
                intro id hnew
                have hdeclared : id ∉ d.model.declared.map (·.id) := fun h =>
                  hnew (mem_nodeIds_of_mem_declared h)
                have hend : id ∉ endpoints d.model.edges := fun h =>
                  hnew (hwell.mem_nodeIds_of_mem_endpoints h)
                rw [or_iff_right hdeclared, endpoints_append, List.mem_append, or_iff_right hend]
                exact Iff.rfl)
          unfold Editor.createEdge
          rw [hsource, htarget]
          dsimp only
          rw [checkReadable_eq_ok_iff.mpr hstart]
          exact isAnswered_bind (fun _ => ⟨_, _, rfl⟩) hcases

end Creation

/-- A node that is declared by a line or known to the model is known to the model. -/
theorem mem_nodeIds_of_updated
    {d : Diagram} {id : String}
    (hwell : d.IsWellFormed)
    (h : d.lines.any (declaresNode id) = true ∨ (d.model.node? id).isSome = true) :
    id ∈ d.model.nodeIds := by
  rcases h with hdeclared | hknown
  · apply mem_nodeIds_of_mem_declared
    exact hwell.any_declaresNode_iff.mp hdeclared
  · obtain ⟨n, hn⟩ := Option.isSome_iff_exists.mp hknown
    have hid := List.find?_some hn
    rw [← beq_iff_eq.mp hid]
    exact List.mem_map_of_mem (List.mem_of_find?_eq_some hn)

theorem isReadable_set
    {front back : List String} {old new : String} {line : EdgeLine}
    (h : IsReadable (front ++ old :: back))
    (hnew : Line.classify new = .edge line) :
    IsReadable (front ++ new :: back) := by
  intro other hother
  rcases List.mem_append.mp hother with hother | hother
  · exact h other (List.mem_append_left _ hother)
  · rcases List.mem_cons.mp hother with rfl | hother
    · rw [hnew]
      exact fun _ => Line.noConfusion
    · exact h other (List.mem_append_right _ (List.mem_cons_of_mem _ hother))

/-- An update of an edge whose line is found is refused, or writes the style of the edge. -/
theorem updateEdge_of_find?
    {id label : String} {edge : Edge} {l : EdgePlace}
    (hreadable : IsReadable d.lines)
    (hedge : d.model.edge? id = some edge)
    (hl : EdgePlace.find? d.lines edge.source edge.target none (some edge.id) = some l)
    (style : EdgeStyle) :
    e.updateEdge d id label style =
      let new := relabelled (d.lines.getD l.lineNumber "") l.line label
      if (!(l.line.label.getD "" == label) &&
          !edgeReadsBack new edge.source edge.target label) = true
      then .ok (.refused (.unwritableEdgeLabel label))
      else do
        let lines ← LinkStyle.replace (d.lines.set l.lineNumber new) l.position
          (style.write l.position e.indent)
        let edges := d.model.edges.map fun other =>
          if other.id == edge.id then { edge with label, style } else other
        return .changed { lines, model := { d.model with edges } } none := by
  unfold Editor.updateEdge
  rw [hedge]
  dsimp only
  rw [checkReadable_eq_ok_iff.mpr hreadable, hl]
  rfl

section Update

variable (hwell : d.IsWellFormed) (hd : d.IsLegible)

/-- The style of a node is written if the lines give it finite widths. -/
theorem writeNodeStyle_succeeds
    {lines : List String} {id : String}
    (hreadable : IsReadable lines)
    (hfinite : Line.HasFiniteWidths id (lines.map Line.classify))
    (e : Editor) (style : NodeStyle) :
    ∃ lines', e.writeNodeStyle lines id style = .ok lines' := by
  obtain ⟨s, hs⟩ := Line.styleOf_of_finite hfinite
  have hstyle : nodeStyle lines id = .ok s := hs
  unfold Editor.writeNodeStyle
  rw [checkReadable_eq_ok_iff.mpr hreadable]
  cases hany : lines.any (stylesNode id) with
  | true =>
      rw [if_pos rfl, hstyle]
      cases hagrees : s.agrees style with
      | true =>
          exact ⟨lines, by simp [bind, Except.bind, hagrees]; rfl⟩
      | false =>
          cases hdrop : lines.dropWhile (!stylesNode id ·) with
          | nil =>
              exact ⟨lines, by simp [bind, Except.bind, hagrees]; rfl⟩
          | cons first rest =>
              exact ⟨_, by simp [bind, Except.bind, hagrees]; rfl⟩
  | false =>
      rw [if_neg Bool.false_ne_true]
      cases style.isDefault with
      | true =>
          exact ⟨lines, rfl⟩
      | false =>
          exact ⟨_, rfl⟩

include hwell hd

/-- Declared anew, a known node leaves the style lines as they are and the lines readable. -/
theorem declared_isLegible
    {id label indent : String} {shape : Shape}
    (hid : id ∈ d.model.nodeIds)
    (hindent : IsIndent indent)
    (hread :
      d.lines.any (isStale id label shape) = true ∨ d.lines.any (declaresNode id) = false →
        nodeReadsBack id shape label = .ok true) :
    let written :=
      if d.lines.any (declaresNode id) then d.lines.map (freshLine id label shape)
      else append (d.lines.map (freshLine id label shape)) (Node.lineOf indent id shape label)
    (∀ line ∈ written, IsOneLine line) ∧ IsReadable written ∧
      Line.HasFiniteWidths id (written.map Line.classify) := by
  intro written
  have hname := (isIdentifier_iff.mp (hd.named id hid)).2
  have hfresh : IsReadable (d.lines.map (freshLine id label shape)) := by
    intro line hline
    obtain ⟨old, hold, rfl⟩ := List.mem_map.mp hline
    unfold freshLine
    split
    · exact not_overlong_nodeLine (isIndent_indentOf_chars (hwell.oneLine old hold)).blank hname
    · exact hd.readable old hold
  have hgives := (givesNode_written hindent hwell.oneLine hread).2
  have hreadable : IsReadable written := by
    unfold written
    split
    · exact hfresh
    · exact isReadable_append hfresh (not_overlong_nodeLine hindent.blank hname)
  refine ⟨hgives.oneLine, hreadable, ?_⟩
  rw [Line.hasFiniteWidths_congr
    (hgives.same.nodeProperties_eq (by rintro _ ⟨_, rfl⟩; rfl))]
  exact hd.finite id (Or.inl hid)

/-- A node declared anew gets its style, and the model is rebuilt. -/
theorem updatedModel_succeeds
    {e : Editor} {id label : String} {shape : Shape}
    (he : IsIndent e.indent)
    (hid : id ∈ d.model.nodeIds)
    (hread :
      d.lines.any (isStale id label shape) = true ∨ d.lines.any (declaresNode id) = false →
        nodeReadsBack id shape label = .ok true)
    (style : NodeStyle) :
    ∃ lines m,
      e.writeNodeStyle
        (if d.lines.any (declaresNode id) then d.lines.map (freshLine id label shape)
        else
          append (d.lines.map (freshLine id label shape)) (Node.lineOf e.indent id shape label))
        id style = .ok lines ∧
      rebuild
        (if d.lines.any (declaresNode id) then
          d.model.declared.map fun n => if n.id == id then ⟨id, label, shape, style, true⟩ else n
        else d.model.declared ++ [⟨id, label, shape, style, true⟩])
        d.model.edges d.model.nodes lines = .ok m := by
  obtain ⟨honeLine, hreadable, hfinite⟩ := declared_isLegible hwell hd hid he hread
  obtain ⟨lines, hlines⟩ := writeNodeStyle_succeeds hreadable hfinite e style
  have hgives := writeNodeStyle_gives he (hd.named id hid) honeLine hlines
  have hdeclared : ∀ n ∈ d.model.declared, n.id ∈ d.model.nodes.map (·.id) :=
    fun n hn => List.mem_map_of_mem (List.mem_of_mem_filter hn)
  obtain ⟨m, hm⟩ :=
    @rebuild_succeeds
      (if d.lines.any (declaresNode id) then
        d.model.declared.map fun n => if n.id == id then ⟨id, label, shape, style, true⟩ else n
      else d.model.declared ++ [⟨id, label, shape, style, true⟩])
      d.model.nodes d.model.edges lines hgives.readable
      (by
        intro n hn
        split at hn
        · obtain ⟨k, hk, rfl⟩ := List.mem_map.mp hn
          split
          · exact hid
          · exact hdeclared k hk
        · rcases List.mem_append.mp hn with hn | hn
          · exact hdeclared n hn
          · rw [List.mem_singleton.mp hn]
            exact hid)
      (fun _ hend => hwell.mem_nodeIds_of_mem_endpoints hend)
  exact ⟨lines, m, hlines, hm⟩

theorem updateNode_succeeds
    (he : IsIndent e.indent)
    (id label : String) (shape : Shape) (style : NodeStyle) :
    ∃ outcome, e.updateNode d id label (.known shape) style = .ok outcome := by
  refine exists_bind_eq_ok rfl (exists_bind_eq_ok (checkReadable_eq_ok_iff.mpr hd.readable) ?_)
  dsimp only
  split
  · exact ⟨_, rfl⟩
  · rename_i hknown
    have hid : id ∈ d.model.nodeIds := by
      apply mem_nodeIds_of_updated hwell
      rw [Bool.and_eq_true, not_and_or, Bool.not_eq_true', Bool.not_eq_false, Bool.not_eq_true,
        Option.isNone_eq_false_iff] at hknown
      exact hknown.symm
    split
    · obtain ⟨readsBack, hread⟩ :=
        nodeReadsBack_succeeds (isIdentifier_iff.mp (hd.named id hid)).2 shape label
      refine exists_bind_eq_ok hread ?_
      cases readsBack with
      | false =>
          exact ⟨_, rfl⟩
      | true =>
          obtain ⟨lines, m, hlines, hm⟩ :=
            updatedModel_succeeds hwell hd he hid (fun _ => hread) style
          exact exists_bind_eq_ok hlines (exists_bind_eq_ok hm ⟨_, rfl⟩)
    · rename_i hwritten
      rw [Bool.or_eq_true, Bool.not_eq_true'] at hwritten
      obtain ⟨lines, m, hlines, hm⟩ :=
        updatedModel_succeeds hwell hd he hid (fun h => absurd h hwritten) style
      exact exists_bind_eq_ok rfl (exists_bind_eq_ok hlines (exists_bind_eq_ok hm ⟨_, rfl⟩))

/-- An edge gets its label and its style, unless its rank is too large a number. -/
theorem updateEdge_cases
    (id label : String) (style : EdgeStyle) :
    (∃ outcome, e.updateEdge d id label style = .ok outcome) ∨
      e.updateEdge d id label style = .error .oversizedNumber ∧ 2 ^ 63 < d.lines.length := by
  have hreadable := checkReadable_eq_ok_iff.mpr hd.readable
  cases hedge : d.model.edge? id with
  | none =>
      exact Or.inl ⟨_, by simp only [Editor.updateEdge, hedge]; rfl⟩
  | some edge =>
      cases hl : EdgePlace.find? d.lines edge.source edge.target none (some edge.id) with
      | none =>
          exact Or.inl ⟨_, by simp only [Editor.updateEdge, hedge, hreadable, hl]; rfl⟩
      | some l =>
          have hupdate := @updateEdge_of_find? e _ _ label _ _ hd.readable hedge hl style
          obtain ⟨front, old, back, hsplit, _, hold, hfront, hget, hset, hsource, htarget⟩ :=
            exists_append_of_find? hl
          rw [hget] at hupdate
          dsimp only at hupdate
          rw [hset, ← hsource, ← htarget] at hupdate
          rw [hupdate]
          split
          · exact Or.inl ⟨_, rfl⟩
          · rename_i hread
            have hlines : IsReadable (front ++ old :: back) := hsplit ▸ hd.readable
            have holdLine : IsOneLine old :=
              hwell.oneLine old (by simp [hsplit])
            obtain ⟨_, line, hkind, _⟩ :=
              @relabelled_spec old label _ hold holdLine fun hne => by simpa [hne] using hread
            rcases LinkStyle.replace_cases hkind hfront (isReadable_set hlines hkind)
              (style.write l.position e.indent) with ⟨lines', hok⟩ | ⟨hfault, hposition⟩
            · exact Or.inl (exists_bind_eq_ok hok ⟨_, rfl⟩)
            · refine Or.inr ⟨bind_eq_error_iff.mpr (Or.inl hfault), ?_⟩
              have hrank : (Line.edges (front.map Line.classify)).length ≤ front.length :=
                (List.length_filterMap_le _ _).trans_eq (List.length_map _)
              rw [hsplit, List.length_append, List.length_cons]
              omega

end Update

/-- The edges that the graph does not give at a node avoid it. -/
theorem avoids_of_mem_kept
    {m : Model} {id : String} {edge : Edge}
    (h : edge ∈ m.edges.filter fun e => !((Graph.ofModel m).edgesAt m id).contains e.id) :
    edge ∈ m.edges ∧ edge.source ≠ id ∧ edge.target ≠ id := by
  obtain ⟨hedge, hkept⟩ := List.mem_filter.mp h
  rw [Graph.contains_edgesAt hedge] at hkept
  exact ⟨hedge, avoids_eq_true_iff.mp (idAvoids_eq_true_iff.mp hkept edge hedge rfl)⟩

theorem mem_kept_of_mem_declared
    {m : Model} {keep : Node → Bool} {n : Node}
    (h : n ∈ m.declared.filter keep) :
    n.id ∈ (m.nodes.filter keep).map (·.id) := by
  obtain ⟨hn, hkeep⟩ := List.mem_filter.mp h
  exact List.mem_map_of_mem (List.mem_filter.mpr ⟨List.mem_of_mem_filter hn, hkeep⟩)

/-- The ends of the edges that avoid a node are other nodes. -/
theorem Diagram.IsWellFormed.mem_kept_of_mem_endpoints
    {id other : String}
    (hwell : d.IsWellFormed)
    (h :
      other ∈
        endpoints
          (renumberEdges
            (d.model.edges.filter fun e =>
              !((Graph.ofModel d.model).edgesAt d.model id).contains e.id))) :
    other ∈ (d.model.nodes.filter (·.id != id)).map (·.id) := by
  rw [endpoints_renumberEdges] at h
  obtain ⟨edge, hedge, hother⟩ := mem_endpoints.mp h
  obtain ⟨hedge, hsource, htarget⟩ := avoids_of_mem_kept hedge
  obtain ⟨n, hn, rfl⟩ :=
    List.mem_map.mp
      (hwell.mem_nodeIds_of_mem_endpoints (mem_endpoints.mpr ⟨edge, hedge, hother⟩))
  refine List.mem_map_of_mem (List.mem_filter.mpr ⟨hn, bne_iff_ne.mpr ?_⟩)
  rcases hother with hother | hother
  · rwa [← hother]
  · rwa [← hother]

/-- The ends of the edges of which one is gone are nodes. -/
theorem Diagram.IsWellFormed.mem_nodeIds_of_mem_endpoints_eraseIdx
    {position : Nat} {id : String}
    (hwell : d.IsWellFormed)
    (h : id ∈ endpoints (renumberEdges (d.model.edges.eraseIdx position))) :
    id ∈ d.model.nodeIds := by
  rw [endpoints_renumberEdges] at h
  exact hwell.mem_nodeIds_of_mem_endpoints
    (endpoints_subset (fun _ hedge => List.mem_of_mem_eraseIdx hedge) h)

section Deletion

variable (hwell : d.IsWellFormed) (hreadable : IsReadable d.lines)

include hwell hreadable

theorem deleteNode_succeeds
    (id : String) :
    ∃ outcome, Editor.deleteNode d id = .ok outcome := by
  refine exists_bind_eq_ok (checkReadable_eq_ok_iff.mpr hreadable) ?_
  dsimp only
  split
  · exact ⟨_, rfl⟩
  · refine exists_bind_eq_ok (Classical.choose_spec (rebuild_succeeds ?_ ?_ ?_)) ⟨_, rfl⟩
    · intro line hline
      exact LinkStyle.isReadable_dropFrom (nonneg_positionsAt id d.lines) hreadable 0 line
        (List.mem_of_mem_filter hline)
    · exact fun n hn => mem_kept_of_mem_declared hn
    · exact fun other hend => hwell.mem_kept_of_mem_endpoints hend

theorem deleteEdge_succeeds
    (id : String) (source target label : Option String) :
    ∃ outcome, Editor.deleteEdge d id source target label = .ok outcome := by
  unfold Editor.deleteEdge
  dsimp only
  split
  · refine exists_bind_eq_ok (checkReadable_eq_ok_iff.mpr hreadable) ?_
    split
    · exact ⟨_, rfl⟩
    · rename_i l _
      refine exists_bind_eq_ok (Classical.choose_spec (rebuild_succeeds ?_ ?_ ?_)) ⟨_, rfl⟩
      · exact LinkStyle.isReadable_dropFrom (by simp) hreadable 0
      · intro n hn
        exact List.mem_map_of_mem (List.mem_of_mem_filter hn)
      · exact fun other hend => hwell.mem_nodeIds_of_mem_endpoints_eraseIdx hend
  · exact ⟨_, rfl⟩

end Deletion

end Edits

section EditFaults

/-- Whether the shape that an edit gives, if any, is known. -/
def Edit.HasKnownShape : Edit → Prop
  | .createNode ref _ => ∃ shape, ref = .known shape
  | .updateNode _ _ ref _ => ∃ shape, ref = .known shape
  | _ => True

/-- The ids that a creation writes into the text of a diagram. -/
def Edit.written (e : Editor) (d : Diagram) : Edit → List String
  | .createNode _ _ => [NodeId.next (e.startLines d) e.stem]
  | .createEdge source target => source.toList ++ target.toList
  | _ => []

/-- The diagram that an edit changed, with the id of what it created. -/
def Edit.changed? : Except Fault Outcome → Option (Diagram × Option String)
  | .ok (.changed d created) => some (d, created)
  | _ => none

theorem Edit.changed?_eq_some_iff
    {result : Except Fault Outcome} {d : Diagram} {created : Option String} :
    changed? result = some (d, created) ↔ result = .ok (.changed d created) := by
  cases result with
  | error fault =>
      simp [changed?]
  | ok outcome =>
      cases outcome with
      | changed d' created' =>
          simp [changed?]
      | refused problem =>
          simp [changed?]

/--
Every edit of a diagram that was read is refused and leaves it as it is, or changes
it, or ends in one of two faults.  A width beyond all finite values is one that the
text gives to an id which a creation writes; a number is too large only in a text
of more lines than such a number counts.
-/
theorem apply_isAnswered
    {text : String} {d : Diagram} {edit : Edit}
    (hd : Diagram.ofText text = .ok d)
    (hknown : edit.HasKnownShape) :
    Edit.IsAnswered d (edit.written {} d) (({} : Editor).apply d edit) ∨
      ({} : Editor).apply d edit = .error .oversizedNumber ∧ 2 ^ 63 < d.lines.length := by
  have hreading := isReading_of_ofText hd
  have hwell := isWellFormed_of_isReading hreading
  have hlegible := isLegible_of_isReading hreading
  have he := Editor.writesLines_default
  cases edit with
  | createNode ref given =>
      obtain ⟨shape, rfl⟩ := hknown
      exact Or.inl (createNode_isAnswered he hlegible hwell (by decide) shape given)
  | createEdge source target =>
      exact Or.inl (createEdge_isAnswered he hlegible hwell source target)
  | updateNode id label ref style =>
      obtain ⟨shape, rfl⟩ := hknown
      exact Or.inl
        (isAnswered_of_succeeds (updateNode_succeeds hwell hlegible he.indent id label shape style))
  | updateEdge id label style =>
      exact (updateEdge_cases hwell hlegible id label style).imp_left isAnswered_of_succeeds
  | deleteNode id =>
      exact Or.inl (isAnswered_of_succeeds (deleteNode_succeeds hwell hlegible.readable id))
  | deleteEdge id source target label =>
      exact Or.inl
        (isAnswered_of_succeeds (deleteEdge_succeeds hwell hlegible.readable id source target label))

/-- A style line waits for the id of the new node, with a finite width. -/
theorem apply_isAnswered_of_waiting_width :
    ∃ d d' : Diagram,
      Diagram.ofText "style node1 stroke-width:2px" = .ok d ∧
      (Edit.createNode (.known .rectangle) none).HasKnownShape ∧
      ({} : Editor).apply d (.createNode (.known .rectangle) none) =
        .ok (.changed d' (some "node1")) ∧
      d'.lines = ["style node1 stroke-width:2px", "    node1[New Node]"] ∧
      (Edit.createNode (.known .rectangle) none).written {} d = ["node1"] ∧
      (Edit.IsAnswered d ((Edit.createNode (.known .rectangle) none).written {} d)
          (({} : Editor).apply d (.createNode (.known .rectangle) none)) ∨
        ({} : Editor).apply d (.createNode (.known .rectangle) none) =
          .error .oversizedNumber ∧ 2 ^ 63 < d.lines.length) := by
  have hd :
      Diagram.ofText "style node1 stroke-width:2px" =
        .ok { lines := ["style node1 stroke-width:2px"] } := by
    rfl
  have hknown : (Edit.createNode (.known .rectangle) none).HasKnownShape := ⟨_, rfl⟩
  have hrun :
      (Edit.changed?
          (({} : Editor).apply { lines := ["style node1 stroke-width:2px"] }
            (.createNode (.known .rectangle) none))).map (fun r => (r.1.lines, r.2)) =
        some (["style node1 stroke-width:2px", "    node1[New Node]"], some "node1") := by
    decide +kernel
  obtain ⟨⟨d', created⟩, hchanged, hgiven⟩ := Option.map_eq_some_iff.mp hrun
  obtain ⟨hlines, rfl⟩ := Prod.mk.inj hgiven
  exact ⟨_, d', hd, hknown, Edit.changed?_eq_some_iff.mp hchanged, hlines, rfl,
    apply_isAnswered hd hknown⟩

/-- A wide line alone is read as a text without nodes. -/
theorem ofText_wideLine
    {id : String}
    (hid : isIdentifier id.toList = true)
    (zeros : Nat) :
    Diagram.ofText (wideLine id zeros) = .ok ⟨[wideLine id zeros], {}⟩ := by
  have hkind := classify_wideLine hid zeros
  have hne : [wideLine id zeros] ≠ [""] := by
    intro hlines
    rw [List.singleton_inj.mp hlines, Line.classify_of_isBlankLine rfl] at hkind
    cases hkind
  have hsplit : splitLines (wideLine id zeros) = [wideLine id zeros] := by
    have hjoined : joinLines [wideLine id zeros] = wideLine id zeros := by
      rfl
    rw [← hjoined, splitLines_joinLines (by simpa using isOneLine_wideLine hid zeros) hne, hjoined]
  have hreadable : IsReadable [wideLine id zeros] := by
    intro line hline
    rw [List.mem_singleton.mp hline, hkind]
    exact fun _ => Line.noConfusion
  unfold Diagram.ofText Reading.ofText Reading.ofLines
  rw [hsplit, checkReadable_eq_ok_iff.mpr hreadable, List.map_singleton, hkind]
  rfl

/-- A text with no node gives its new node a width of 310 digits. -/
theorem apply_fails :
    ∃ d,
      Diagram.ofText (wideLine "node1" 309) = .ok d ∧
      ({} : Editor).apply d (.createNode (.known .rectangle) none) = .error .infiniteWidth := by
  have hd := @ofText_wideLine "node1" (by decide) 309
  have hkind := @classify_wideLine "node1" (by decide) 309
  have hlegible := isLegible_of_isReading (isReading_of_ofText hd)
  have hstart : ({} : Editor).startLines ⟨[wideLine "node1" 309], {}⟩ = [wideLine "node1" 309] := by
    have hwritten : isBlankLine (wideLine "node1" 309) = false := by
      rw [← Bool.not_eq_true]
      intro hblank
      rw [Line.classify_of_isBlankLine hblank] at hkind
      cases hkind
    simp [Editor.startLines, Diagram.isEmpty, hwritten]
  have hnext : NodeId.next [wideLine "node1" 309] "node" = "node1" := by
    simp only [NodeId.next, NodeId.used, hkind, NodeId.mentioned, List.flatMap_singleton]
    decide
  have hread :
      nodeReadsBack
          (NodeId.next (({} : Editor).startLines ⟨[wideLine "node1" 309], {}⟩) "node") .rectangle
          "New Node" = .ok true := by
    rw [hstart, hnext]
    rfl
  have hreadable := isReadable_startLines Editor.writesLines_default hlegible.readable
  have hanswer :=
    createNode_isAnswered Editor.writesLines_default hlegible
      (isWellFormed_of_isReading (isReading_of_ofText hd)) (by decide) .rectangle none
  refine ⟨_, hd, ?_⟩
  rcases hanswer with ⟨problem, hrefused, _⟩ | ⟨_, hfinite⟩ | ⟨herror, _⟩
  · rw [@createNode_of_readsBack {} _ _ none _ hreadable hread] at hrefused
    obtain ⟨_, _, h⟩ := bind_eq_ok_iff.mp hrefused
    cases h
  · rw [hstart] at hfinite
    refine absurd (hfinite _ (List.mem_singleton.mpr rfl) (wideProperties 309) ?_)
      not_hasFiniteWidth_wide
    simp [hkind, hnext]
  · exact herror

end EditFaults

end Flowchart
