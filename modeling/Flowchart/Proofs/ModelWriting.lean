import Flowchart.Proofs.EdgeIds
import Flowchart.Proofs.NodeStyles
import Flowchart.Proofs.ShapeCoding

/-!
# A written model is read back

The lines of a written model are classified as what they are written of: a node line
as a declaration, an edge line as an edge between bare ends, a style line as the
properties of a style that is not the default one.  The lines that a model was read
of do not matter any more; of each of its parts they only tell that it can be written:

* the brackets of a node line are those of the shape that was decoded of it;
* the ends of an edge line are identifiers, and its label holds no bar;
* the index of a link-style line that styles an edge has few enough digits.

* `reads_kinds`: the kinds of the written lines are read as the model.
* `map_classify_writtenLines`: the written lines are of these kinds.
* `write_reads_back`: so a model that was read of a text is read of its own text.
-/

namespace Flowchart

open Text

/-- The properties that are written of a style; of the default one there are none. -/
def NodeStyle.written? (s : NodeStyle) : Option Properties :=
  if s.isDefault then none else some s.properties

/-- The properties that are written of a style; of the default one there are none. -/
def EdgeStyle.written? (s : EdgeStyle) : Option Properties :=
  if s.isDefault then none else some s.properties

/-- The label between its brackets; a shape that is not known has none. -/
def Node.body (n : Node) : String :=
  match n.shape with
  | .known shape => shape.encode n.label
  | .unknown _ => n.label

@[simp] theorem Node.body_plain
    (n : Node) :
    n.plain.body = n.body := by
  rfl

/-- The brackets of a declaration are those that it was read of. -/
theorem Node.body_declaredNode
    {id body : String}
    (h : (Shape.enclosing? body.toList).isSome = true) :
    (Reading.declaredNode id body).body = body :=
  Shape.encode_decode h

/-- The edge line of an edge between bare ends. -/
def Edge.line (e : Edge) : EdgeLine where
  source := e.source
  target := e.target
  label := Edge.writtenLabel e.label
  sourceText := e.source
  targetText := e.target

/-- The kinds of the lines of a model that is written under a header. -/
def Model.kinds (m : Model) (keyword : String) (direction : Option String) : List Line :=
  .header keyword direction :: m.declared.map (fun n => .node n.id n.body)
    ++ m.edges.map (fun e => .edge e.line)
    ++ m.nodes.filterMap (fun n => n.style.written?.map (.style n.id))
    ++ m.edges.zipIdx.filterMap fun (e, rank) => e.style.written?.map (.linkStyle rank)

theorem Edge.toEdge_line
    (e : Edge) :
    e.line.toEdge = { id := "", source := e.source, target := e.target, label := e.label } := by
  unfold EdgeLine.toEdge Edge.line
  rw [getD_writtenLabel]

section Kinds

variable (m : Model) (keyword : String) (direction : Option String)

theorem declarations_kinds :
    Reading.declarations (m.kinds keyword direction) =
      m.declared.map fun n => Reading.declaredNode n.id n.body := by
  simp [Reading.declarations, Model.kinds, List.filterMap_append, List.filterMap_filterMap]

theorem edges_kinds :
    Line.edges (m.kinds keyword direction) = m.edges.map Edge.line := by
  simp [Line.edges, Model.kinds, List.filterMap_append, List.filterMap_filterMap]

theorem nodeProperties_kinds
    (id : String) :
    Line.nodeProperties id (m.kinds keyword direction) =
      (m.nodes.filter (·.id == id)).filterMap (·.style.written?) := by
  have hstyle :
      ∀ n : Node,
        (n.style.written?.bind fun ps => if n.id = id then some ps else none) =
          if n.id = id then n.style.written? else none := by
    intro n
    split <;> simp
  simp [Line.nodeProperties, Model.kinds, List.filterMap_append, List.filterMap_filterMap,
    List.filterMap_filter, Option.bind_map, hstyle]

theorem edgeProperties_kinds
    (index : Nat) :
    Line.edgeProperties index (m.kinds keyword direction) =
      (m.edges.zipIdx.filter (·.2 == index)).filterMap (·.1.style.written?) := by
  have hstyle :
      ∀ (e : Edge) (rank : Nat),
        (e.style.written?.bind fun ps => if rank = index then some ps else none) =
          if rank = index then e.style.written? else none := by
    intro e rank
    split <;> simp
  simp [Line.edgeProperties, Model.kinds, List.filterMap_append, List.filterMap_filterMap,
    List.filterMap_filter, Option.bind_map, hstyle]

end Kinds

/-- Where no two members have the same key, what is taken at a key is that of its member. -/
theorem filterMap_filter_key
    {α β κ : Type} [BEq κ] [LawfulBEq κ] {key : α → κ} {xs : List α} {x : α}
    (f : α → Option β)
    (hnodup : (xs.map key).Nodup)
    (hx : x ∈ xs) :
    (xs.filter (key · == key x)).filterMap f = (f x).toList := by
  rw [filter_key_eq_singleton hnodup hx]
  cases hfx : f x <;> simp [hfx]

/-- No width that is read of a text has a sign. -/
theorem Width.negative_of_check
    {negative : Bool} {rank : Nat} {w : Width}
    (h : Width.check (.signed negative rank) = .ok w) :
    w.negative = negative := by
  unfold Width.check at h
  split at h
  · rename_i found hfound
    cases h
    rw [Width.ofDouble?] at hfound
    split_ifs at hfound
    cases hfound
    rfl
  · cases h

namespace NodeStyle

/-- What overwrites a width has no sign. -/
theorem negative_of_overwrite
    {s s' : NodeStyle} {ps : Properties}
    (hs : s.borderWidth.negative = false)
    (h : s.overwrite ps = .ok s') :
    s'.borderWidth.negative = false := by
  unfold overwrite at h
  dsimp only at h
  split at h
  · obtain ⟨w, hw, h⟩ := bind_eq_ok_iff.mp h
    cases h
    exact Width.negative_of_check hw
  · cases h
    exact hs

theorem negative_of_overwriteAll
    {s s' : NodeStyle} {lines : List Properties}
    (hs : s.borderWidth.negative = false)
    (h : s.overwriteAll lines = .ok s') :
    s'.borderWidth.negative = false := by
  induction lines generalizing s with
  | nil =>
      cases h
      exact hs
  | cons ps lines ih =>
      obtain ⟨first, hfirst, hrest⟩ := bind_eq_ok_iff.mp h
      exact ih (negative_of_overwrite hs hfirst) hrest

/-- Styles whose widths have no sign agree only if they are the same. -/
theorem eq_of_agrees
    {s t : NodeStyle}
    (hs : s.borderWidth.negative = false)
    (ht : t.borderWidth.negative = false)
    (h : s.agrees t = true) :
    s = t := by
  obtain ⟨textColor, backgroundColor, borderColor, width, border⟩ := s
  obtain ⟨textColor', backgroundColor', borderColor', width', border'⟩ := t
  obtain ⟨rank, negative, finite, zero⟩ := width
  obtain ⟨rank', negative', finite', zero'⟩ := width'
  obtain ⟨rfl, rfl, rfl, hrank, rfl⟩ := agrees_iff.mp h
  cases hs
  cases ht
  cases hrank
  rfl

end NodeStyle

/-- The style that was written of a node is the one that is read. -/
theorem styleOf_of_written
    {kinds : List Line} {id : String} {style : NodeStyle}
    (hstyle : style.borderWidth.negative = false)
    (h : Line.nodeProperties id kinds = style.written?.toList) :
    Line.styleOf kinds id = .ok style := by
  unfold NodeStyle.written? at h
  split at h
  · rename_i hdefault
    rw [Line.styleOf_of_nodeProperties h, NodeStyle.eq_of_agrees hstyle rfl hdefault]
  · obtain ⟨s, hs, hagrees⟩ := styleOf_agrees_of_nodeProperties h
    have hpositive := NodeStyle.negative_of_overwriteAll rfl hs
    rw [hs, NodeStyle.eq_of_agrees hpositive hstyle hagrees]

/-- The style that was written of an edge is the one that is read. -/
theorem EdgeStyle.overwriteAll_written
    (s : EdgeStyle) :
    EdgeStyle.overwriteAll {} s.written?.toList = s := by
  unfold written?
  split
  · rename_i hdefault
    exact (eq_of_beq hdefault).symm
  · exact overwrite_properties s {}

namespace Reading

/-- Declarations of different new ids are put one after the other. -/
theorem foldl_declare_of_nodup
    {nodes ds : List Node}
    (h : ((nodes ++ ds).map (·.id)).Nodup) :
    ds.foldl declare nodes = nodes ++ ds := by
  induction ds generalizing nodes with
  | nil =>
      simp
  | cons n ds ih =>
      have hnew : n.id ∉ nodes.map (·.id) := by
        rw [List.map_append, List.nodup_append] at h
        intro hmem
        exact h.2.2 _ hmem n.id (by simp) rfl
      rw [List.append_cons] at h
      rw [List.foldl_cons, declare_of_not_mem hnew, ih h, ← List.append_cons]

section Reads

variable {lines : List String} {m : Model}
  (h : Reads (lines.map Line.classify) m)

include h

/-- A node that is declared stands on a node line. -/
theorem Reads.exists_nodeLine
    {n : Node}
    (hn : n ∈ m.declared) :
    ∃ line ∈ lines, ∃ id body,
      Line.classify line = .node id body ∧ n.plain = declaredNode id body := by
  have hmem : n.plain ∈ declaredNodes (lines.map Line.classify) := by
    rw [← h.declared_eq.1]
    exact List.mem_map_of_mem hn
  obtain ⟨kind, hkind, hnode⟩ := List.mem_filterMap.mp (mem_declaredNodes hmem)
  obtain ⟨line, hline, rfl⟩ := List.mem_map.mp hkind
  split at hnode
  · rename_i id body hbody
    exact ⟨line, hline, id, body, hbody, (Option.some.inj hnode).symm⟩
  · cases hnode

/-- An edge stands on an edge line. -/
theorem Reads.exists_edgeLine
    {e : Edge}
    (he : e ∈ m.edges) :
    ∃ line ∈ lines, ∃ l,
      Line.classify line = .edge l ∧ e.source = l.source ∧ e.target = l.target ∧
        e.label = l.label.getD "" := by
  obtain ⟨rank, hrank⟩ := List.mem_iff_getElem?.mp he
  rw [h.edges, getElem?_modelEdges] at hrank
  obtain ⟨l, hl, rfl⟩ := Option.map_eq_some_iff.mp hrank
  obtain ⟨kind, hkind, hedge⟩ := List.mem_filterMap.mp (List.mem_of_getElem? hl)
  obtain ⟨line, hline, rfl⟩ := List.mem_map.mp hkind
  split at hedge
  · rename_i l' hl'
    cases hedge
    exact ⟨line, hline, l, hl', rfl, rfl, rfl⟩
  · cases hedge

/-- A style that is not the default one is given by a link-style line of the rank. -/
theorem Reads.exists_linkStyleLine
    {e : Edge} {rank : Nat}
    (he : m.edges[rank]? = some e)
    (hstyle : e.style.isDefault = false) :
    ∃ line ∈ lines, ∃ properties, Line.classify line = .linkStyle rank properties := by
  rw [h.edges, getElem?_modelEdges] at he
  obtain ⟨l, _, rfl⟩ := Option.map_eq_some_iff.mp he
  have hne : Line.edgeProperties rank (lines.map Line.classify) ≠ [] := by
    intro hnil
    rw [hnil] at hstyle
    cases hstyle
  obtain ⟨properties, hproperties⟩ := List.exists_mem_of_ne_nil _ hne
  obtain ⟨kind, hkind, hgiven⟩ := List.mem_filterMap.mp hproperties
  obtain ⟨line, hline, rfl⟩ := List.mem_map.mp hkind
  split at hgiven
  · rename_i index ps hclassify
    split at hgiven
    · rename_i hindex
      rw [hindex] at hclassify
      exact ⟨line, hline, ps, hclassify⟩
    · cases hgiven
  · cases hgiven

theorem Reads.negative_style
    {n : Node}
    (hn : n ∈ m.nodes) :
    n.style.borderWidth.negative = false :=
  NodeStyle.negative_of_overwriteAll rfl (h.styles n hn)

/--
A declared node is written as its node line was, and declared again by it.  What is
written is the core of the old line, so no reader before that of nodes takes it.
-/
theorem Reads.write_declared
    {n : Node} {indent : String}
    (hn : n ∈ m.declared)
    (hindent : IsIndent indent) :
    n.write indent = .ok (indent ++ (n.id ++ n.body)) ∧
      Line.classify (indent ++ (n.id ++ n.body)) = .node n.id n.body ∧
      IsOneLine (indent ++ (n.id ++ n.body)) ∧
      declaredNode n.id n.body = n.plain := by
  obtain ⟨line, _, id, body, hkind, hplain⟩ := h.exists_nodeLine hn
  obtain ⟨hid, hcore, hbrackets, hbody⟩ :=
    node?_eq_some (Line.reader?_of_classify hkind (by simp))
  obtain ⟨hne, hends⟩ := Shape.getLast?_of_enclosing? hbrackets
  have hidEq : n.id = id := congrArg Node.id hplain
  have hbodyEq : n.body = body := by
    rw [← n.body_plain, hplain, Node.body_declaredNode hbrackets]
  have hwrite : n.write indent = .ok (indent ++ (n.id ++ n.body)) := by
    have hshape : n.shape = .known (Shape.decode body).shape := congrArg Node.shape hplain
    simp [Node.write, Node.lineOf, Node.body, hshape, ShapeRef.resolve, String.append_assoc]
  have hkind' : Line.kind? (Line.core (id ++ body).toList) = some (.node id body) := by
    have hself : Line.core (id ++ body).toList = (id ++ body).toList := by
      rw [String.toList_append]
      apply Line.core_eq_self
      · exact startsTight_append (isIdentifier_iff.mp hid).1 (startsTight_of_isIdentifier hid)
      · rw [getLast?_append_of_ne_nil hne]
        exact hends
    rw [hself, String.toList_append, ← hcore]
    exact Line.kind?_of_classify hkind (by simp)
  rw [hidEq, hbodyEq] at hwrite ⊢
  refine ⟨hwrite, Line.classify_of_kind? hindent.blank hkind', ?_, hplain.symm⟩
  rw [isOneLine_append, isOneLine_append]
  exact ⟨hindent.oneLine, isOneLine_of_isIdentifier hid, hbody⟩

/-- The ends of an edge are identifiers, and its label holds neither a bar nor a line feed. -/
theorem Reads.parts_of_edge
    {e : Edge}
    (honeLine : ∀ line ∈ lines, IsOneLine line)
    (he : e ∈ m.edges) :
    isIdentifier e.source.toList = true ∧ isIdentifier e.target.toList = true ∧
      '|' ∉ e.label.toList ∧ IsOneLine e.label := by
  obtain ⟨line, hline, l, hkind, hsource, htarget, hlabel⟩ := h.exists_edgeLine he
  obtain ⟨hsourceId, htargetId, _, _, hparts⟩ := parts_of_classify_edge hkind
  rw [hsource, htarget, hlabel]
  refine ⟨hsourceId, htargetId, ?_⟩
  cases hwritten : l.label with
  | none =>
      exact ⟨List.not_mem_nil, List.not_mem_nil⟩
  | some label =>
      obtain ⟨hbar, hsubset⟩ := hparts label hwritten
      exact ⟨hbar, fun hmem => honeLine line hline (hsubset hmem)⟩

/-- All nodes are named by identifiers. -/
theorem Reads.isIdentifier_of_mem_nodes
    {n : Node}
    (honeLine : ∀ line ∈ lines, IsOneLine line)
    (hn : n ∈ m.nodes) :
    isIdentifier n.id.toList = true := by
  have hmem : n.id ∈ m.nodeIds := List.mem_map_of_mem hn
  rcases h.mem_nodeIds.mp hmem with hdeclared | hend
  · obtain ⟨k, hk, hid⟩ := List.mem_map.mp hdeclared
    obtain ⟨line, _, id, body, hkind, hplain⟩ := h.exists_nodeLine hk
    have hidEq : k.id = id := congrArg Node.id hplain
    rw [← hid, hidEq]
    exact isIdentifier_of_classify_node hkind
  · obtain ⟨e, he, hid⟩ := mem_endpoints.mp hend
    obtain ⟨hsource, htarget, _⟩ := h.parts_of_edge honeLine he
    rcases hid with hid | hid
    · rw [← hid]
      exact hsource
    · rw [← hid]
      exact htarget

/-- The rank of an edge with a style of its own has few enough digits. -/
theorem Reads.length_toDigits_le
    {e : Edge} {rank : Nat}
    (he : m.edges[rank]? = some e)
    (hstyle : e.style.isDefault = false) :
    (Nat.toDigits 10 rank).length ≤ Line.indexLimit := by
  obtain ⟨line, _, properties, hkind⟩ := h.exists_linkStyleLine he hstyle
  obtain ⟨gap, digits, gap', rest, trail, hparts, hlimit, hnumber, _⟩ :=
    exists_parts_of_classify_linkStyle hkind
  exact Nat.le_trans (Text.length_toDigits_le hparts.run_ne_nil (Nat.le_of_eq hnumber.symm)) hlimit

/--
The written edge lines and link-style lines give the edges back, with their numbers.
Numbers count ends only, so it does not matter that the written edges have none yet.
-/
theorem Reads.modelEdges_kinds
    (keyword : String) (direction : Option String) :
    modelEdges (m.kinds keyword direction) = m.edges := by
  have hnumbered : AreNumbered m.edges := by
    rw [h.edges]
    exact areNumbered_modelEdges _
  have hends :
      ∀ rank, (((m.edges.map Edge.line).map EdgeLine.toEdge).take rank).map Edge.ends =
        (m.edges.take rank).map Edge.ends := by
    intro rank
    rw [List.map_take, List.map_take, List.map_map, List.map_map]
    rfl
  have hranks : (m.edges.zipIdx.map (·.2)).Nodup := by
    rw [List.zipIdx_map_snd]
    exact List.nodup_range'
  apply List.ext_getElem?
  intro rank
  rw [getElem?_modelEdges, edges_kinds, edgeProperties_kinds, List.getElem?_map, Option.map_map]
  cases he : m.edges[rank]? with
  | none =>
      rfl
  | some e =>
      have hid :
          Edge.nextId (((m.edges.map Edge.line).map EdgeLine.toEdge).take rank) e.source
            e.target = e.id := by
        rw [nextId_congr (hends rank)]
        exact (hnumbered.id_eq he).symm
      have hstyle :
          EdgeStyle.overwriteAll {}
              ((m.edges.zipIdx.filter (·.2 == rank)).filterMap (·.1.style.written?)) =
            e.style := by
        have hmem : (e, rank) ∈ m.edges.zipIdx := List.mem_zipIdx_iff_getElem?.mpr he
        rw [filterMap_filter_key (·.1.style.written?) hranks hmem]
        exact e.style.overwriteAll_written
      rw [Option.map_some, Function.comp_apply, Edge.toEdge_line, hstyle]
      exact congrArg (fun id => some { e with id := id }) hid

/-- The kinds of the written lines are read as the model. -/
theorem reads_kinds
    (keyword : String) (direction : Option String) :
    Reads (m.kinds keyword direction) m := by
  have hdeclared :
      declaredNodes (m.kinds keyword direction) = declaredNodes (lines.map Line.classify) := by
    have hplain :
        declarations (m.kinds keyword direction) = declaredNodes (lines.map Line.classify) := by
      rw [declarations_kinds, ← h.declared_eq.1]
      exact List.map_congr_left fun n hn => (h.write_declared hn isIndent_default).2.2.2
    have hnodup := nodup_declaredNodes (lines.map Line.classify)
    rw [declaredNodes_eq, hplain]
    exact foldl_declare_of_nodup hnodup
  constructor
  · rw [plainNodes_eq, hdeclared, h.modelEdges_kinds, h.edges, ← plainNodes_eq]
    exact h.nodes
  · intro n hn
    have hids : (m.nodes.map (·.id)).Nodup := h.nodup_nodeIds
    apply styleOf_of_written (h.negative_style hn)
    rw [nodeProperties_kinds, filterMap_filter_key (·.style.written?) hids hn]
  · exact (h.modelEdges_kinds keyword direction).symm

end Reads

end Reading

/-- The lines of a model that is written under a header. -/
def Model.writtenLines (m : Model) (header : String) : List String :=
  header :: m.declared.map (fun n => defaultIndent ++ (n.id ++ n.body))
    ++ m.edges.map (·.write defaultIndent)
    ++ m.nodes.filterMap (fun n =>
        if n.style.isDefault then none else some (n.style.write n.id defaultIndent))
    ++ m.edges.zipIdx.filterMap fun (e, rank) =>
        if e.style.isDefault then none else some (e.style.write rank defaultIndent)

namespace Reading

section Reads

variable {lines : List String} {m : Model}
  (h : Reads (lines.map Line.classify) m)

include h

/-- A model that was read has only shapes that can be written. -/
theorem write_eq_ok
    (header : String) :
    m.write header = .ok (joinLines (m.writtenLines header)) := by
  have hnodes :
      m.declared.mapM (·.write defaultIndent) =
        .ok (m.declared.map fun n => defaultIndent ++ (n.id ++ n.body)) := by
    rw [mapM_eq_ok_iff, List.forall₂_map_right_iff, List.forall₂_same]
    exact fun n hn => (h.write_declared hn isIndent_default).1
  exact bind_eq_ok_iff.mpr ⟨_, hnodes, rfl⟩

theorem classify_nodeLines :
    (m.declared.map fun n => defaultIndent ++ (n.id ++ n.body)).map Line.classify =
      m.declared.map fun n => .node n.id n.body := by
  rw [List.map_map]
  apply List.map_congr_left
  intro n hn
  obtain ⟨_, hkind, _⟩ := h.write_declared hn isIndent_default
  rw [Function.comp_apply, hkind]

theorem classify_linkStyleLines :
    (m.edges.zipIdx.filterMap fun (e, rank) =>
        if e.style.isDefault then none else some (e.style.write rank defaultIndent)).map
          Line.classify =
      m.edges.zipIdx.filterMap fun (e, rank) => e.style.written?.map (.linkStyle rank) := by
  rw [List.map_filterMap]
  apply List.filterMap_congr
  intro ⟨e, rank⟩ he
  dsimp only
  unfold EdgeStyle.written?
  split
  · rfl
  · rename_i hdefault
    have hdigits :=
      h.length_toDigits_le (List.mem_zipIdx_iff_getElem?.mp he) (by simpa using hdefault)
    rw [Option.map_some, EdgeStyle.classify_write hdigits isIndent_default.blank,
      Option.map_some]

variable (honeLine : ∀ line ∈ lines, IsOneLine line)

include honeLine

theorem classify_edgeLines :
    (m.edges.map (·.write defaultIndent)).map Line.classify = m.edges.map (.edge ·.line) := by
  rw [List.map_map]
  apply List.map_congr_left
  intro e he
  obtain ⟨hsource, htarget, hbar, _⟩ := h.parts_of_edge honeLine he
  rw [Function.comp_apply, Edge.write,
    classify_edgeLine isIndent_default.blank hsource htarget hbar]
  rfl

theorem classify_styleLines :
    (m.nodes.filterMap fun n =>
        if n.style.isDefault then none else some (n.style.write n.id defaultIndent)).map
          Line.classify =
      m.nodes.filterMap fun n => n.style.written?.map (.style n.id) := by
  rw [List.map_filterMap]
  apply List.filterMap_congr
  intro n hn
  have hid := h.isIdentifier_of_mem_nodes honeLine hn
  unfold NodeStyle.written?
  split
  · rfl
  · rw [Option.map_some, NodeStyle.classify_write hid n.style isIndent_default.blank,
      Option.map_some]

theorem map_classify_writtenLines
    {header keyword : String} {direction : Option String}
    (hheader : Line.classify header = .header keyword direction) :
    (m.writtenLines header).map Line.classify = m.kinds keyword direction := by
  simp only [Model.writtenLines, Model.kinds, List.map_append, List.map_cons, hheader,
    classify_nodeLines h, classify_edgeLines h honeLine, classify_styleLines h honeLine,
    classify_linkStyleLines h]

theorem isOneLine_writtenLines
    {header : String}
    (hheader : IsOneLine header) :
    ∀ line ∈ m.writtenLines header, IsOneLine line := by
  have hindent := isIndent_default.oneLine
  intro line hline
  simp only [Model.writtenLines, List.mem_append, List.mem_cons, List.mem_map,
    List.mem_filterMap] at hline
  rcases hline with (((rfl | ⟨n, hn, rfl⟩) | ⟨e, he, rfl⟩) | ⟨n, hn, hwritten⟩) |
    ⟨⟨e, rank⟩, he, hwritten⟩
  · exact hheader
  · exact (h.write_declared hn isIndent_default).2.2.1
  · obtain ⟨hsource, htarget, _, hlabel⟩ := h.parts_of_edge honeLine he
    exact isOneLine_edgeLine hindent (isOneLine_of_isIdentifier hsource)
      (isOneLine_of_isIdentifier htarget) hlabel
  · split at hwritten
    · cases hwritten
    · rw [← Option.some.inj hwritten]
      exact NodeStyle.isOneLine_write (h.isIdentifier_of_mem_nodes honeLine hn) n.style hindent
  · dsimp only at hwritten
    split at hwritten
    · cases hwritten
    · rw [← Option.some.inj hwritten]
      exact EdgeStyle.isOneLine_write hindent e.style rank

/-- The written lines and the model are a diagram that its own text is read as. -/
theorem isReading_written
    {header keyword : String} {direction : Option String}
    (hheader : Line.classify header = .header keyword direction)
    (hheaderLine : IsOneLine header) :
    Diagram.IsReading ⟨m.writtenLines header, m⟩ := by
  have hkinds := map_classify_writtenLines h honeLine hheader
  constructor
  · exact isOneLine_writtenLines h honeLine hheaderLine
  · intro line hline digits hdigits
    have hmem : Line.overlong digits ∈ m.kinds keyword direction := by
      rw [← hkinds, ← hdigits]
      exact List.mem_map_of_mem hline
    simp [Model.kinds] at hmem
  · rw [hkinds]
    exact reads_kinds h keyword direction

end Reads

end Reading

/-- A model that was read of a text is read back from its own text, under any header. -/
theorem write_reads_back
    {text header keyword : String} {direction : Option String} {d : Diagram}
    (hd : Diagram.ofText text = .ok d)
    (hheaderLine : IsOneLine header)
    (hheader : Line.classify header = .header keyword direction) :
    ∃ written r,
      d.model.write header = .ok written ∧
      Diagram.ofText written = .ok r ∧
      r.model = d.model := by
  obtain ⟨honeLine, _, hreads⟩ := isReading_of_ofText hd
  have hreading := Reading.isReading_written hreads honeLine hheader hheaderLine
  have hne : d.model.writtenLines header ≠ [""] := by
    intro hempty
    have hblank : header = "" := (List.cons.inj hempty).1
    rw [hblank, Line.classify_of_isBlankLine rfl] at hheader
    cases hheader
  exact ⟨_, _, Reading.write_eq_ok hreads header, hreading.ofText_text hne, rfl⟩

/-- A node declared anew, a styled placeholder, and the second of two parallel edges styled. -/
theorem write_reads_back_of_styled_placeholder :
    ∃ d,
      Diagram.ofText
          (joinLines [
            "B((1))", "A --> B", "A -->|no | B", "B[ (2] ]", "style A stroke-width:1.5px",
            "linkStyle 01 color:red"]) = .ok d ∧
      (d.model.write " graph LR;").toOption =
        some
          (joinLines [
            " graph LR;", "    B[ (2] ]", "    A --> B", "    A -->|no | B",
            "    style A stroke-width:1.5px,stroke:#000000,color:#000000,fill:#ffffff",
            "    linkStyle 1 stroke:#6b7280,color:red"]) ∧
      IsOneLine " graph LR;" ∧
      Line.classify " graph LR;" = .header "graph" (some "LR") ∧
      ∃ written r,
        d.model.write " graph LR;" = .ok written ∧
        Diagram.ofText written = .ok r ∧
        r.model = d.model := by
  have hheader : Line.classify " graph LR;" = .header "graph" (some "LR") := by
    decide +kernel
  have hok :
      ∀ (x : Except Fault Diagram) (f : Diagram → Option String) (written : String),
        x.toOption.bind f = some written → ∃ d, x = .ok d ∧ f d = some written := by
    intro x f written h
    cases x with
    | error fault =>
        cases h
    | ok d =>
        exact ⟨d, rfl, h⟩
  obtain ⟨d, hd, hwritten⟩ :=
    hok
      (Diagram.ofText
        (joinLines [
          "B((1))", "A --> B", "A -->|no | B", "B[ (2] ]", "style A stroke-width:1.5px",
          "linkStyle 01 color:red"]))
      (fun d => (d.model.write " graph LR;").toOption)
      (joinLines [
        " graph LR;", "    B[ (2] ]", "    A --> B", "    A -->|no | B",
        "    style A stroke-width:1.5px,stroke:#000000,color:#000000,fill:#ffffff",
        "    linkStyle 1 stroke:#6b7280,color:red"])
      (by decide +kernel)
  have hheaderLine : IsOneLine " graph LR;" := by
    decide
  exact ⟨d, hd, hwritten, hheaderLine, hheader, write_reads_back hd hheaderLine hheader⟩

end Flowchart
