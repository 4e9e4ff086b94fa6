import Flowchart.Proofs.EditSteps
import Flowchart.Proofs.NodeStyles

/-!
# Updated nodes

An update writes the stale node lines of a node anew, or adds a first one, and then
its style.  Of what the lines say only the declaration and the style of the node
change, and the model has the new node in the place of the old one; a node that only
edges mention moves to the declared ones.

Main result: `updateNode_reads_back`.
-/

namespace Flowchart

open Edit Text

/-- The node lines of a node. -/
def Line.IsNodeOf (id : String) (kind : Line) : Prop :=
  ∃ body, kind = .node id body

theorem declaresNode_eq_true_iff
    {id line : String} :
    declaresNode id line = true ↔ (Line.classify line).IsNodeOf id := by
  unfold declaresNode Line.IsNodeOf
  cases Line.classify line with
  | node owner body =>
      simp
  | _ =>
      simp

theorem mem_declarations_iff
    {lines : List String} {n : Node} :
    n ∈ Reading.declarations (lines.map Line.classify) ↔
      ∃ line ∈ lines, ∃ id body,
        Line.classify line = .node id body ∧ Reading.declaredNode id body = n := by
  unfold Reading.declarations
  rw [List.filterMap_map, List.mem_filterMap]
  constructor
  · rintro ⟨line, hline, hnode⟩
    rw [Function.comp_apply] at hnode
    cases hkind : Line.classify line with
    | node id body =>
        rw [hkind] at hnode
        exact ⟨line, hline, id, body, hkind, Option.some.inj hnode⟩
    | _ =>
        rw [hkind] at hnode
        cases hnode
  · rintro ⟨line, hline, id, body, hkind, rfl⟩
    refine ⟨line, hline, ?_⟩
    rw [Function.comp_apply, hkind]

/-- A node is declared if one of the lines declares it. -/
theorem any_declaresNode_iff
    {lines : List String} {id : String} :
    lines.any (declaresNode id) = true ↔
      id ∈ (Reading.declaredNodes (lines.map Line.classify)).map (·.id) := by
  rw [Reading.mem_map_id_declaredNodes, List.any_eq_true, List.mem_map]
  constructor
  · rintro ⟨line, hline, hdeclares⟩
    obtain ⟨body, hkind⟩ := declaresNode_eq_true_iff.mp hdeclares
    exact ⟨_, mem_declarations_iff.mpr ⟨line, hline, id, body, hkind, rfl⟩, rfl⟩
  · rintro ⟨n, hn, rfl⟩
    obtain ⟨line, hline, id, body, hkind, rfl⟩ := mem_declarations_iff.mp hn
    exact ⟨line, hline, declaresNode_eq_true_iff.mpr ⟨body, hkind⟩⟩

/-- Lines that declare a node are not a single empty one. -/
theorem ne_singleton_of_declaresNode
    {lines : List String} {id : String}
    (h : lines.any (declaresNode id) = true) :
    lines ≠ [""] := by
  rintro rfl
  rw [any_declaresNode_iff, List.map_singleton, Line.classify_of_isBlankLine rfl] at h
  cases h

/-- Lines that declare a node, and otherwise say what other lines say. -/
structure GivesNode (n : Node) (lines lines' : List String) : Prop where
  oneLine : ∀ line ∈ lines', IsOneLine line
  same : LooksSame (Line.IsNodeOf n.id) (lines.map Line.classify) (lines'.map Line.classify)
  declared :
    Reading.declaredNodes (lines'.map Line.classify) =
      Reading.declare (Reading.declaredNodes (lines.map Line.classify)) n

theorem GivesNode.any_declaresNode
    {n : Node} {lines lines' : List String}
    (h : GivesNode n lines lines') :
    lines'.any (declaresNode n.id) = true := by
  rw [any_declaresNode_iff, h.declared, Reading.mem_map_id_declare]
  exact Or.inr rfl

/-- A node that is declared stays so when its style is written. -/
theorem GivesNode.any_declaresNode_of_styled
    {n : Node} {lines written lines' : List String} {style : NodeStyle}
    (h : GivesNode n lines written)
    (hstyle : GivesStyle n.id style written lines') :
    lines'.any (declaresNode n.id) = true := by
  rw [any_declaresNode_iff, hstyle.same.declaredNodes_eq (by rintro _ ⟨_, rfl⟩; rfl),
    ← any_declaresNode_iff]
  exact h.any_declaresNode

section Declared

variable {lines : List String} {id label indent : String} {shape : Shape}

/-- A line written anew declares the node if the line before did, and is that line if not. -/
theorem freshLine_spec
    {line : String}
    (hline : IsOneLine line)
    (hread : isStale id label shape line = true → nodeReadsBack id shape label = .ok true) :
    IsOneLine (freshLine id label shape line) ∧
      (freshLine id label shape line = line ∧ ¬(Line.classify line).IsNodeOf id ∨
        (Line.classify line).IsNodeOf id ∧
          ∃ body, Line.classify (freshLine id label shape line) = .node id body ∧
            Reading.declaredNode id body = ⟨id, label, shape, {}, true⟩) := by
  unfold freshLine
  cases hstale : isStale id label shape line with
  | true =>
      obtain ⟨hlabel, body, hbody, hdeclared⟩ := nodeReadsBack_eq_true (hread hstale)
      have hindent := isIndent_indentOf_chars hline
      have hdeclares : declaresNode id line = true := (Bool.and_eq_true_iff.mp hstale).1
      refine ⟨?_, Or.inr ⟨declaresNode_eq_true_iff.mp hdeclares, body, ?_, hdeclared⟩⟩
      · exact isOneLine_nodeLine hindent.oneLine (isIdentifier_of_classify_node hbody) hlabel
      · exact classify_nodeLine isIndent_default.blank hindent.blank hbody
          fun _ => Line.noConfusion
  | false =>
      refine ⟨hline, ?_⟩
      cases hdeclares : declaresNode id line with
      | false =>
          refine Or.inl ⟨rfl, fun hnode => ?_⟩
          rw [declaresNode_eq_true_iff.mpr hnode] at hdeclares
          cases hdeclares
      | true =>
          have has : declaresAs shape label line = true := by
            unfold isStale at hstale
            rwa [hdeclares, Bool.true_and, Bool.not_eq_false'] at hstale
          exact Or.inr ⟨declaresNode_eq_true_iff.mp hdeclares,
            declaredNode_of_declaresAs hdeclares has⟩

section Fresh

variable
  (honeLine : ∀ line ∈ lines, IsOneLine line)
  (hread : lines.any (isStale id label shape) = true → nodeReadsBack id shape label = .ok true)

include honeLine hread

theorem freshLine_spec_of_mem
    {line : String}
    (hline : line ∈ lines) :
    IsOneLine (freshLine id label shape line) ∧
      (freshLine id label shape line = line ∧ ¬(Line.classify line).IsNodeOf id ∨
        (Line.classify line).IsNodeOf id ∧
          ∃ body, Line.classify (freshLine id label shape line) = .node id body ∧
            Reading.declaredNode id body = ⟨id, label, shape, {}, true⟩) :=
  freshLine_spec (honeLine line hline) fun hstale =>
    hread (List.any_eq_true.mpr ⟨line, hline, hstale⟩)

theorem declarations_fresh :
    Reading.declarations ((lines.map (freshLine id label shape)).map Line.classify) =
      (Reading.declarations (lines.map Line.classify)).map fun n =>
        if n.id == id then ⟨id, label, shape, {}, true⟩ else n := by
  unfold Reading.declarations
  rw [List.map_map, List.filterMap_map, List.filterMap_map, List.map_filterMap]
  apply List.filterMap_congr
  intro line hline
  simp only [Function.comp_apply]
  rcases (freshLine_spec_of_mem honeLine hread hline).2 with ⟨hsame, hnot⟩ | ⟨hnode, hnew⟩
  · rw [hsame]
    cases hkind : Line.classify line with
    | node owner body =>
        have howner : owner ≠ id := by
          rintro rfl
          exact hnot ⟨body, hkind⟩
        simp [Reading.declaredNode, howner]
    | _ =>
        rfl
  · obtain ⟨old, hold⟩ := hnode
    obtain ⟨body, hbody, hdeclared⟩ := hnew
    have hid : ((Reading.declaredNode id old).id == id) = true := beq_self_eq_true id
    rw [hold, hbody]
    dsimp only
    rw [Option.map_some, hid, if_pos rfl, hdeclared]

/-- Node lines written anew declare the node that they declared before. -/
theorem givesNode_fresh
    (hdeclared : lines.any (declaresNode id) = true) :
    GivesNode ⟨id, label, shape, {}, true⟩ lines (lines.map (freshLine id label shape)) where
  oneLine := by
    intro line hline
    obtain ⟨old, hold, rfl⟩ := List.mem_map.mp hline
    exact (freshLine_spec_of_mem honeLine hread hold).1
  same := by
    intro α view _ _ hview
    rw [List.map_map, List.filterMap_map, List.filterMap_map]
    apply List.filterMap_congr
    intro line hline
    simp only [Function.comp_apply]
    rcases (freshLine_spec_of_mem honeLine hread hline).2 with ⟨hsame, _⟩ | ⟨hnode, hnew⟩
    · rw [hsame]
    · obtain ⟨body, hbody, _⟩ := hnew
      rw [hview _ hnode, hbody]
      exact hview _ ⟨body, rfl⟩
  declared := by
    have hids :
        ∀ n : Node,
          (if n.id == id then (⟨id, label, shape, {}, true⟩ : Node) else n).id = n.id := by
      intro n
      split
      · rename_i hid
        exact (beq_iff_eq.mp hid).symm
      · rfl
    have hfold := Reading.foldl_declare_map hids
      (Reading.declarations (lines.map Line.classify)) []
    rw [Reading.declare_of_mem (any_declaresNode_iff.mp hdeclared), Reading.declaredNodes_eq,
      declarations_fresh honeLine hread, Reading.declaredNodes_eq]
    exact hfold

end Fresh

/-- Where no line is stale, none is written anew. -/
theorem map_freshLine_of_not_stale
    (hstale : lines.any (isStale id label shape) = false) :
    lines.map (freshLine id label shape) = lines := by
  have hsame : ∀ line ∈ lines, freshLine id label shape line = line :=
    fun line hline => if_neg (List.any_eq_false.mp hstale line hline)
  rw [List.map_congr_left hsame, List.map_id']

theorem map_freshLine_of_not_declared
    (hdeclared : lines.any (declaresNode id) = false) :
    lines.map (freshLine id label shape) = lines := by
  apply map_freshLine_of_not_stale
  rw [List.any_eq_false]
  intro line hline hstale
  exact List.any_eq_false.mp hdeclared line hline (Bool.and_eq_true_iff.mp hstale).1

/-- A first node line of a node declares it behind the others. -/
theorem givesNode_append
    (honeLine : ∀ line ∈ lines, IsOneLine line)
    (hindent : IsIndent indent)
    (hread : nodeReadsBack id shape label = .ok true)
    (hdeclared : lines.any (declaresNode id) = false) :
    GivesNode ⟨id, label, shape, {}, true⟩ lines
      (append (lines.map (freshLine id label shape)) (Node.lineOf indent id shape label)) := by
  obtain ⟨hlabel, body, hbody, hnode⟩ := nodeReadsBack_eq_true hread
  have hkind : Line.classify (Node.lineOf indent id shape label) = .node id body :=
    classify_nodeLine isIndent_default.blank hindent.blank hbody fun _ => Line.noConfusion
  have hextends := extends_append lines (Node.lineOf indent id shape label)
  rw [hkind] at hextends
  have hid : id ∉ (Reading.declaredNodes (lines.map Line.classify)).map (·.id) := by
    intro hmem
    rw [any_declaresNode_iff.mpr hmem] at hdeclared
    cases hdeclared
  rw [map_freshLine_of_not_declared hdeclared]
  constructor
  · intro line hline
    rcases mem_append_iff.mp hline with rfl | hline
    · exact isOneLine_nodeLine hindent.oneLine (isIdentifier_of_classify_node hbody) hlabel
    · exact honeLine line hline
  · exact hextends.looksSame ⟨body, rfl⟩
  · rw [hextends.declaredNodes_append hid, hnode, Reading.declare_of_not_mem hid]

/-- The lines that an update writes declare the node. -/
theorem givesNode_written
    (hindent : IsIndent indent)
    (honeLine : ∀ line ∈ lines, IsOneLine line)
    (hread :
      lines.any (isStale id label shape) = true ∨ lines.any (declaresNode id) = false →
        nodeReadsBack id shape label = .ok true) :
    isIdentifier id.toList = true ∧
      GivesNode ⟨id, label, shape, {}, true⟩ lines
        (if lines.any (declaresNode id) then lines.map (freshLine id label shape)
        else
          append (lines.map (freshLine id label shape))
            (Node.lineOf indent id shape label)) := by
  cases hdeclared : lines.any (declaresNode id) with
  | true =>
      obtain ⟨line, _, hline⟩ := List.any_eq_true.mp hdeclared
      obtain ⟨body, hbody⟩ := declaresNode_eq_true_iff.mp hline
      exact ⟨isIdentifier_of_classify_node hbody,
        givesNode_fresh honeLine (fun hstale => hread (Or.inl hstale)) hdeclared⟩
  | false =>
      have hreads := hread (Or.inr hdeclared)
      obtain ⟨_, body, hbody, _⟩ := nodeReadsBack_eq_true hreads
      exact ⟨isIdentifier_of_classify_node hbody,
        givesNode_append honeLine hindent hreads hdeclared⟩

end Declared

theorem mem_declare_self
    (nodes : List Node) (n : Node) :
    n ∈ Reading.declare nodes n := by
  by_cases hid : n.id ∈ nodes.map (·.id)
  · rw [Reading.declare_of_mem hid]
    obtain ⟨k, hk, heq⟩ := List.mem_map.mp hid
    exact List.mem_map.mpr ⟨k, hk, if_pos (beq_iff_eq.mpr heq)⟩
  · rw [Reading.declare_of_not_mem hid]
    exact List.mem_append_right _ List.mem_cons_self

section NewNode

variable {kinds : List Line} {m : Model} {n : Node} (h : Reading.Reads kinds m)

include h

/-- With a known node declared anew the other nodes stay as they are. -/
theorem completeNodes_redeclare :
    completeNodes (Reading.declare m.declared n) m.edges m.nodes =
      Reading.declare m.declared n ++
        m.nodes.filter fun k => !k.declared && k.id != n.id := by
  rw [completeNodes_eq, Reading.map_id_declare]
  congr 1
  have hfilter :
      (m.nodes.filter fun k => !k.declared && k.id != n.id) =
        (m.nodes.filter (!·.declared)).filter (·.id != n.id) := by
    rw [List.filter_filter]
    congr 1
    funext k
    exact Bool.and_comm _ _
  rw [hfilter, ← h.map_former]
  split
  · rename_i hid
    have hall :
        ∀ k ∈ (newEnds (m.declared.map (·.id)) (endpoints m.edges)).map (former m.nodes),
          (k.id != n.id) = true := by
      intro k hk
      obtain ⟨other, hother, rfl⟩ := List.mem_map.mp hk
      rw [former_id, bne_iff_ne]
      rintro rfl
      exact (mem_newEnds.mp hother).2 hid
    rw [List.filter_eq_self.mpr hall]
  · rw [newEnds_append_singleton, List.filter_map]
    congr 2
    funext other
    rw [Function.comp_apply, former_id]

theorem filter_id_redeclare :
    (Reading.declare m.declared n ++
        m.nodes.filter fun k => !k.declared && k.id != n.id).filter (·.id == n.id) = [n] := by
  have hnodup : ((Reading.declare m.declared n).map (·.id)).Nodup := by
    apply Reading.nodup_declare
    rw [h.map_id_declared]
    exact Reading.nodup_declaredNodes kinds
  have hrest :
      (m.nodes.filter fun k => !k.declared && k.id != n.id).filter (·.id == n.id) = [] := by
    rw [List.filter_eq_nil_iff]
    intro k hk hid
    have hne := (Bool.and_eq_true_iff.mp (List.mem_filter.mp hk).2).2
    exact bne_iff_ne.mp hne (beq_iff_eq.mp hid)
  rw [List.filter_append, filter_key_eq_singleton hnodup (mem_declare_self _ _), hrest]
  rfl

theorem filter_ne_redeclare :
    (Reading.declare m.declared n ++
        m.nodes.filter fun k => !k.declared && k.id != n.id).filter (·.id != n.id) =
      m.nodes.filter (·.id != n.id) := by
  have hdeclare :=
    @Reading.filter_declare_of_not_keep (· != n.id) n (by simp) m.declared
  have hrest :
      (m.nodes.filter fun k => !k.declared && k.id != n.id).filter (·.id != n.id) =
        (m.nodes.filter (!·.declared)).filter (·.id != n.id) := by
    rw [List.filter_filter, List.filter_filter]
    congr 1
    funext k
    rw [Bool.and_comm (!k.declared), ← Bool.and_assoc, Bool.and_self]
  rw [List.filter_append, hdeclare, hrest, ← List.filter_append,
    ← h.declared_eq.2.2]

end NewNode

theorem ShapeRef.agrees_refl
    (ref : ShapeRef) :
    ref.agrees ref = true := by
  cases ref with
  | known shape =>
      exact beq_self_eq_true shape
  | unknown text =>
      exact beq_self_eq_true text.literal

/-- A node agrees with itself under any style that agrees with its own. -/
theorem agrees_restyled
    {n : Node} {s : NodeStyle}
    (h : n.style.agrees s = true) :
    n.agrees { n with style := s } = true := by
  unfold Node.agrees
  simp [h, ShapeRef.agrees_refl]

theorem Node.agrees_refl
    (n : Node) :
    n.agrees n = true :=
  agrees_restyled (NodeStyle.agrees_iff.mpr ⟨rfl, rfl, rfl, rfl, rfl⟩)

theorem agreeOn_map
    {α β : Type} {same : β → β → Bool} {f g : α → β} {xs : List α}
    (h : ∀ x ∈ xs, same (f x) (g x) = true) :
    agreeOn same (xs.map f) (xs.map g) = true := by
  induction xs with
  | nil =>
      rfl
  | cons x xs ih =>
      rw [List.map_cons, List.map_cons, agreeOn, h x List.mem_cons_self,
        ih fun y hy => h y (List.mem_cons_of_mem _ hy)]
      rfl

theorem agreeOn_append
    {α : Type} {same : α → α → Bool} {xs xs' ys ys' : List α}
    (h : agreeOn same xs ys = true)
    (h' : agreeOn same xs' ys' = true) :
    agreeOn same (xs ++ xs') (ys ++ ys') = true := by
  induction xs generalizing ys with
  | nil =>
      cases ys with
      | nil =>
          exact h'
      | cons y ys =>
          cases h
  | cons x xs ih =>
      cases ys with
      | nil =>
          cases h
      | cons y ys =>
          rw [agreeOn, Bool.and_eq_true] at h
          rw [List.cons_append, List.cons_append, agreeOn, h.1, ih h.2]
          rfl

theorem agreeOn_refl
    (nodes : List Node) :
    agreeOn Node.agrees nodes nodes = true := by
  have hmap := agreeOn_map (f := id) (g := id) fun n (_ : n ∈ nodes) => n.agrees_refl
  rwa [List.map_id] at hmap

/-- Nodes that agree make models that agree when they are declared. -/
theorem agreeOn_declare
    {n n' : Node}
    (h : n.agrees n' = true)
    (nodes : List Node) :
    agreeOn Node.agrees (Reading.declare nodes n) (Reading.declare nodes n') = true := by
  have hid : n'.id = n.id := by
    unfold Node.agrees at h
    simp only [Bool.and_eq_true, beq_iff_eq] at h
    exact h.1.1.1.1.symm
  by_cases hmem : n.id ∈ nodes.map (·.id)
  · rw [Reading.declare_of_mem hmem, Reading.declare_of_mem (by rw [hid]; exact hmem), hid]
    apply agreeOn_map
    intro k _
    split
    · exact h
    · exact k.agrees_refl
  · rw [Reading.declare_of_not_mem hmem, Reading.declare_of_not_mem (by rw [hid]; exact hmem)]
    refine agreeOn_append (agreeOn_refl nodes) ?_
    rw [agreeOn, h]
    rfl

section UpdateNode

variable {e : Editor} {d d' : Diagram} {id label : String} {shape : Shape} {style : NodeStyle}
  {created : Option String}

/-- An update declares the node on some lines and then writes its style. -/
theorem updateNode_gives
    {ref : ShapeRef}
    (he : IsIndent e.indent)
    (honeLine : ∀ line ∈ d.lines, IsOneLine line)
    (h : e.updateNode d id label ref style = .ok (.changed d' created)) :
    ∃ shape written,
      ref.resolve = .ok shape ∧
      GivesNode ⟨id, label, shape, {}, true⟩ d.lines written ∧
      GivesStyle id style written d'.lines ∧
      rebuild
        (if d.lines.any (declaresNode id) then
          d.model.declared.map fun n => if n.id == id then ⟨id, label, shape, style, true⟩ else n
        else d.model.declared ++ [⟨id, label, shape, style, true⟩])
        d.model.edges d.model.nodes d'.lines = .ok d'.model := by
  obtain ⟨shape, written, hshape, _, _, hread, hwritten, hstyle, hmodel⟩ :=
    updateNode_eq_changed h
  have hgives := givesNode_written he honeLine hread
  rw [← hwritten] at hgives
  obtain ⟨hid, hgives⟩ := hgives
  exact ⟨shape, written, hshape, hgives, writeNodeStyle_gives he hid hgives.oneLine hstyle, hmodel⟩

/-- The declared nodes get the node in its place if a line declares it, and at the end if not. -/
theorem redeclared_eq_declare
    {declared : List Node} {lines : List String} {n : Node}
    (h : lines.any (declaresNode n.id) = true ↔ n.id ∈ declared.map (·.id)) :
    (if lines.any (declaresNode n.id) then
        declared.map fun k => if k.id == n.id then n else k
      else declared ++ [n]) =
      Reading.declare declared n := by
  by_cases hmem : n.id ∈ declared.map (·.id)
  · rw [Reading.declare_of_mem hmem, if_pos (h.mpr hmem)]
  · rw [Reading.declare_of_not_mem hmem, if_neg fun hdeclared => hmem (h.mp hdeclared)]

/-- An update declares the node, writes its style, and puts it into the model. -/
theorem updateNode_spec
    (he : IsIndent e.indent)
    (hd : d.IsReading)
    (h : e.updateNode d id label (.known shape) style = .ok (.changed d' created)) :
    id ∈ d.model.nodeIds ∧
      (∃ written,
        GivesNode ⟨id, label, shape, {}, true⟩ d.lines written ∧
          GivesStyle id style written d'.lines) ∧
      d'.model =
        ⟨Reading.declare d.model.declared ⟨id, label, shape, style, true⟩ ++
          d.model.nodes.filter fun k => !k.declared && k.id != id, d.model.edges⟩ := by
  obtain ⟨_, _, _, _, hpresent, _⟩ := updateNode_eq_changed h
  obtain ⟨shape', written, hshape, hgives, hstyle, hmodel⟩ := updateNode_gives he hd.oneLine h
  cases hshape
  have hany : d.lines.any (declaresNode id) = true ↔ id ∈ d.model.declared.map (·.id) := by
    rw [any_declaresNode_iff, hd.reads.map_id_declared]
  have hknown : id ∈ d.model.nodeIds := by
    rcases hpresent with hdeclared | hnode
    · exact hd.reads.mem_nodeIds.mpr (Or.inl (hany.mp hdeclared))
    · obtain ⟨n, hn⟩ := Option.isSome_iff_exists.mp hnode
      have hid := List.find?_some hn
      rw [← beq_iff_eq.mp hid]
      exact List.mem_map_of_mem (List.mem_of_find?_eq_some hn)
  refine ⟨hknown, ⟨written, hgives, hstyle⟩, ?_⟩
  rw [redeclared_eq_declare (n := ⟨id, label, shape, style, true⟩) hany] at hmodel
  obtain ⟨hnodes, hedges⟩ := rebuild_eq_ok_iff.mp hmodel
  rw [completeNodes_redeclare hd.reads] at hnodes
  have hall :
      ∀ k ∈ Reading.declare d.model.declared ⟨id, label, shape, style, true⟩ ++
          d.model.nodes.filter fun k => !k.declared && k.id != id,
        k.id ∈ d.model.nodes.map (·.id) := by
    intro k hk
    rcases List.mem_append.mp hk with hk | hk
    · rcases Reading.mem_declare hk with ⟨hk, _⟩ | rfl
      · exact List.mem_map_of_mem (List.mem_of_mem_filter hk)
      · exact hknown
    · exact List.mem_map_of_mem (List.mem_of_mem_filter hk)
  rw [mapM_keepOrStyle hall] at hnodes
  rw [Except.ok.inj hnodes, ← hedges]

/-- The lines after an update are read as the model with the style that they give. -/
theorem isReading_updated
    {written lines : List String} {s : NodeStyle}
    (hd : d.IsReading)
    (hnode : GivesNode ⟨id, label, shape, {}, true⟩ d.lines written)
    (hstyle : GivesStyle id style written lines)
    (hs : Line.styleOf (lines.map Line.classify) id = .ok s) :
    Diagram.IsReading
      ⟨lines,
        ⟨Reading.declare d.model.declared ⟨id, label, shape, s, true⟩ ++
          d.model.nodes.filter fun k => !k.declared && k.id != id, d.model.edges⟩⟩ := by
  have hdeclared :
      (Reading.declare d.model.declared ⟨id, label, shape, s, true⟩).map Node.plain =
        Reading.declaredNodes (lines.map Line.classify) := by
    rw [hstyle.same.declaredNodes_eq (by rintro _ ⟨_, rfl⟩; rfl), hnode.declared,
      ← hd.reads.declared_eq.1]
    exact (Reading.declare_map Node.plain_id _ _).symm
  have hedges : d.model.edges = Reading.modelEdges (lines.map Line.classify) := by
    rw [hstyle.same.modelEdges_eq (by rintro _ ⟨_, rfl⟩; rfl) (by rintro _ ⟨_, rfl⟩ _; rfl),
      hnode.same.modelEdges_eq (by rintro _ ⟨_, rfl⟩; rfl) (by rintro _ ⟨_, rfl⟩ _; rfl)]
    exact hd.reads.edges
  have hother :
      ∀ k ∈ d.model.nodes, k.id ≠ id →
        Line.styleOf (lines.map Line.classify) k.id = .ok k.style := by
    intro k hk hne
    have hhidden :
        ∀ kind : Line, kind.IsStyleOf id → Line.nodeProperties k.id [kind] = [] := by
      rintro _ ⟨properties, rfl⟩
      simp [Line.nodeProperties, hne.symm]
    rw [hstyle.same.styleOf_eq hhidden, hnode.same.styleOf_eq (by rintro _ ⟨_, rfl⟩; rfl)]
    exact hd.reads.styles k hk
  have hreads :=
    reads_completeNodes hdeclared hedges
      (fun k hk hplain => hd.reads.plain_of_not_declared hk hplain)
      (by
        rw [completeNodes_redeclare hd.reads]
        intro k hk
        rcases List.mem_append.mp hk with hk | hk
        · rcases Reading.mem_declare hk with ⟨hk, hne⟩ | rfl
          · exact hother k (List.mem_of_mem_filter hk) hne
          · exact hs
        · obtain ⟨hk, hcond⟩ := List.mem_filter.mp hk
          exact hother k hk (bne_iff_ne.mp (Bool.and_eq_true_iff.mp hcond).2))
  rw [completeNodes_redeclare hd.reads] at hreads
  exact ⟨hstyle.oneLine, hstyle.readable, hreads⟩

/--
A diagram after the update of a node is what its text is read as, with widths
compared by value.  The node has the given label, shape and style and is declared;
the other nodes and the edges are as they were.
-/
theorem updateNode_reads_back
    {text : String}
    (hd : Diagram.ofText text = .ok d)
    (h :
      ({} : Editor).apply d (.updateNode id label (.known shape) style) =
        .ok (.changed d' created)) :
    (∃ r, Diagram.ofText d'.text = .ok r ∧ d'.agrees r = true) ∧
      d'.model.nodes.filter (·.id == id) = [⟨id, label, shape, style, true⟩] ∧
      d'.model.nodes.filter (·.id != id) = d.model.nodes.filter (·.id != id) ∧
      d'.model.edges = d.model.edges := by
  have hd := isReading_of_ofText hd
  obtain ⟨_, ⟨written, hnode, hstyle⟩, hmodel⟩ := updateNode_spec isIndent_default hd h
  obtain ⟨s, hs, hagrees⟩ := hstyle.given
  have hreading := isReading_updated hd hnode hstyle hs
  have hne : d'.lines ≠ [""] := by
    intro hlines
    have hempty : Line.classify "" = .other "" := Line.classify_of_isBlankLine rfl
    have hnodes := hreading.reads.nodes
    rw [hlines, List.map_singleton, hempty] at hnodes
    have hnone := (List.append_eq_nil_iff.mp (List.map_eq_nil_iff.mp hnodes)).1
    have hmem := mem_declare_self d.model.declared ⟨id, label, shape, s, true⟩
    rw [hnone] at hmem
    exact absurd hmem List.not_mem_nil
  rw [hmodel]
  refine ⟨⟨_, hreading.ofText_text hne, ?_⟩,
    @filter_id_redeclare _ _ ⟨id, label, shape, style, true⟩ hd.reads,
    @filter_ne_redeclare _ _ ⟨id, label, shape, style, true⟩ hd.reads, rfl⟩
  have hsame :
      Node.agrees ⟨id, label, shape, style, true⟩ ⟨id, label, shape, s, true⟩ = true :=
    agrees_restyled (NodeStyle.agrees_symm hagrees)
  have hnodes :=
    agreeOn_append (agreeOn_declare hsame d.model.declared)
      (agreeOn_refl (d.model.nodes.filter fun k => !k.declared && k.id != id))
  unfold Diagram.agrees Model.agrees
  rw [hmodel]
  dsimp only
  rw [hnodes]
  simp

/-- A node that only an edge mentions is declared, and its partial style line is replaced. -/
theorem updateNode_reads_back_of_partial_style :
    ∃ (d d' : Diagram) (style : NodeStyle),
      Diagram.ofText "style B fill:#ff0000\nA --> B" = .ok d ∧
      ({} : Editor).apply d (.updateNode "B" "Bee" (.known .circle) style) =
        .ok (.changed d' none) ∧
      d'.lines = [
        "style B stroke-width:2.5px,stroke:#000000,color:#000000,fill:#ffffff"
          ++ ",stroke-dasharray:5 5",
        "A --> B", "    B((Bee))"] ∧
      (∃ r, Diagram.ofText d'.text = .ok r ∧ d'.agrees r = true) ∧
      d'.model.nodes.filter (·.id == "B") = [⟨"B", "Bee", Shape.circle, style, true⟩] ∧
      d'.model.nodes.filter (·.id != "B") = d.model.nodes.filter (·.id != "B") ∧
      d'.model.edges = d.model.edges := by
  have hd :
      Diagram.ofText "style B fill:#ff0000\nA --> B" =
        .ok {
          lines := ["style B fill:#ff0000", "A --> B"]
          model := {
            nodes := [
              placeholder "A",
              { placeholder "B" with style := { backgroundColor := ⟨"#ff0000", rfl⟩ } }]
            edges := [{ id := "edge_A_B", source := "A", target := "B" }] } } := by
    rfl
  have hrun :
      (match ({} : Editor).apply {
          lines := ["style B fill:#ff0000", "A --> B"]
          model := {
            nodes := [
              placeholder "A",
              { placeholder "B" with style := { backgroundColor := ⟨"#ff0000", rfl⟩ } }]
            edges := [{ id := "edge_A_B", source := "A", target := "B" }] } }
          (.updateNode "B" "Bee" (.known .circle) {
            borderWidth := ⟨0x4004000000000000, false, by decide, nofun⟩
            border := .dashed }) with
        | .ok (.changed d' none) =>
            d'.lines == [
              "style B stroke-width:2.5px,stroke:#000000,color:#000000,fill:#ffffff"
                ++ ",stroke-dasharray:5 5",
              "A --> B", "    B((Bee))"]
        | _ => false) = true := by
    decide +kernel
  split at hrun
  · rename_i d' h
    exact ⟨_, d', _, hd, h, beq_iff_eq.mp hrun, updateNode_reads_back hd h⟩
  · cases hrun

end UpdateNode

end Flowchart
