import Flowchart.Proofs.EdgeRemoval
import Flowchart.Proofs.EditSteps
import Flowchart.Proofs.Rebuilding

/-!
# Deletion

Deleting removes lines and lowers link-style indices, and the rest of the text is
read as before.  So the declared nodes that stay keep their values and their order,
the edges that stay keep labels and styles and are numbered anew, and of the
placeholders exactly those stay that a remaining edge mentions.

* `deleteEdge_reads_back`: the new model is that of the new text, less one edge.
* `deleteNode_reads_back`: the new text has neither the node nor its edges.
-/

namespace Flowchart

open Edit

theorem endpoints_subset
    {edges edges' : List Edge} {id : String}
    (h : ∀ edge ∈ edges, edge ∈ edges')
    (hid : id ∈ endpoints edges) :
    id ∈ endpoints edges' := by
  obtain ⟨edge, hedge, hend⟩ := mem_endpoints.mp hid
  exact mem_endpoints.mpr ⟨edge, h edge hedge, hend⟩

section Restriction

variable {kinds kinds' : List Line} {m : Model} {keep : String → Bool} {edges : List Edge}
  (h : Reading.Reads kinds m)
  (hends : ∀ id ∈ endpoints edges, id ∈ endpoints m.edges ∧ keep id = true)

include h hends

/-- The nodes that stay: declared ones of the kept ids, and the placeholders still mentioned. -/
theorem completeNodes_restrict :
    ∃ rest,
      completeNodes (m.declared.filter (keep ·.id)) edges (m.nodes.filter (keep ·.id)) =
        m.declared.filter (keep ·.id) ++ rest ∧
      ∀ n, n ∈ rest ↔ n ∈ m.nodes ∧ n.declared = false ∧ n.id ∈ endpoints edges := by
  refine ⟨_, completeNodes_eq _ _ _, ?_⟩
  have hprevious : ∀ k ∈ m.nodes.filter (keep ·.id), k ∈ m.nodes :=
    fun _ hk => List.mem_of_mem_filter hk
  have hdeclared :
      ∀ n ∈ m.nodes, keep n.id = true →
        (n.id ∈ (m.declared.filter (keep ·.id)).map (·.id) ↔ n.declared = true) := by
    intro n hn hkeep
    constructor
    · intro hmem
      obtain ⟨k, hk, hid⟩ := List.mem_map.mp hmem
      obtain ⟨hk, _⟩ := List.mem_filter.mp hk
      obtain ⟨hk, hkDeclared⟩ := List.mem_filter.mp hk
      rw [← h.eq_of_id_eq hk hn hid]
      exact hkDeclared
    · intro hn'
      exact List.mem_map.mpr
        ⟨n, List.mem_filter.mpr ⟨List.mem_filter.mpr ⟨hn, hn'⟩, hkeep⟩, rfl⟩
  intro n
  rw [List.mem_map]
  constructor
  · rintro ⟨id, hid, rfl⟩
    obtain ⟨hend, hnew⟩ := mem_newEnds.mp hid
    obtain ⟨hold, hkeep⟩ := hends id hend
    obtain ⟨k, hk, hkid⟩ := List.mem_map.mp (h.mem_nodeIds.mpr (Or.inr hold))
    have hkDeclared : k.declared = false := by
      rw [← hkid] at hnew hkeep
      rw [← Bool.not_eq_true]
      exact fun hk' => hnew ((hdeclared k hk hkeep).mpr hk')
    have hformer : former (m.nodes.filter (keep ·.id)) id = k := by
      rw [← hkid] at hkeep ⊢
      exact h.former_eq hprevious (List.mem_filter.mpr ⟨hk, hkeep⟩) hkDeclared
    rw [hformer]
    refine ⟨hk, hkDeclared, ?_⟩
    rw [hkid]
    exact hend
  · rintro ⟨hn, hnDeclared, hend⟩
    obtain ⟨_, hkeep⟩ := hends n.id hend
    refine ⟨n.id, mem_newEnds.mpr ⟨hend, ?_⟩, ?_⟩
    · intro hmem
      rw [(hdeclared n hn hkeep).mp hmem] at hnDeclared
      cases hnDeclared
    · exact h.former_eq hprevious (List.mem_filter.mpr ⟨hn, hkeep⟩) hnDeclared

/-- Every node that stays is a former one of a kept id. -/
theorem mem_completeNodes_restrict
    {n : Node}
    (hn : n ∈ completeNodes (m.declared.filter (keep ·.id)) edges (m.nodes.filter (keep ·.id))) :
    n ∈ m.nodes ∧ keep n.id = true := by
  obtain ⟨rest, hcomplete, hrest⟩ := completeNodes_restrict h hends
  rw [hcomplete] at hn
  rcases List.mem_append.mp hn with hn | hn
  · obtain ⟨hn, hkeep⟩ := List.mem_filter.mp hn
    exact ⟨List.mem_of_mem_filter hn, hkeep⟩
  · obtain ⟨hn, _, hend⟩ := (hrest n).mp hn
    exact ⟨hn, (hends n.id hend).2⟩

/-- Which nodes of the restricted model are declared, and which are not. -/
theorem restrict_parts :
    (completeNodes (m.declared.filter (keep ·.id)) edges
        (m.nodes.filter (keep ·.id))).filter (·.declared) =
      m.declared.filter (keep ·.id) ∧
    ∀ n,
      n ∈ completeNodes (m.declared.filter (keep ·.id)) edges (m.nodes.filter (keep ·.id)) ∧
          n.declared = false ↔
        n ∈ m.nodes ∧ n.declared = false ∧ n.id ∈ endpoints edges := by
  obtain ⟨rest, hcomplete, hrest⟩ := completeNodes_restrict h hends
  have hall : ∀ n ∈ m.declared.filter (keep ·.id), n.declared = true := by
    intro n hn
    exact (List.mem_filter.mp (List.mem_filter.mp hn).1).2
  rw [hcomplete]
  constructor
  · have hnone : rest.filter (·.declared) = [] := by
      rw [List.filter_eq_nil_iff]
      intro n hn
      rw [((hrest n).mp hn).2.1]
      exact Bool.false_ne_true
    rw [List.filter_append, List.filter_eq_self.mpr hall, hnone, List.append_nil]
  · intro n
    rw [List.mem_append, ← hrest n]
    constructor
    · rintro ⟨hn | hn, hdeclared⟩
      · rw [hall n hn] at hdeclared
        cases hdeclared
      · exact hn
    · intro hn
      exact ⟨Or.inr hn, ((hrest n).mp hn).2.1⟩

/-- The model that stays is read of the lines that stay. -/
theorem reads_restrict
    (hdeclarations :
      Reading.declarations kinds' = (Reading.declarations kinds).filter (keep ·.id))
    (hstyles :
      ∀ id, keep id = true → Line.nodeProperties id kinds' = Line.nodeProperties id kinds)
    (hedges : edges = Reading.modelEdges kinds') :
    Reading.Reads kinds'
      ⟨completeNodes (m.declared.filter (keep ·.id)) edges (m.nodes.filter (keep ·.id)),
        edges⟩ := by
  refine reads_completeNodes ?_ hedges ?_ ?_
  · rw [Reading.declaredNodes_eq, hdeclarations]
    have hfold := Reading.foldl_declare_filter keep (Reading.declarations kinds) []
    rw [← Reading.declaredNodes_eq, ← h.declared_eq.1, List.filter_map] at hfold
    exact hfold.symm
  · intro n hn
    exact h.plain_of_not_declared (List.mem_of_mem_filter hn)
  · intro n hn
    obtain ⟨hmem, hkeep⟩ := mem_completeNodes_restrict h hends hn
    rw [Line.styleOf_congr (hstyles n.id hkeep)]
    exact h.styles n hmem

end Restriction

section DeleteEdge

variable {d d' : Diagram} {id : String} {source target label created : Option String}

/-- The location of an edge that is found is that of an edge that is asked for. -/
theorem find?_eq_some
    (hd : d.IsReading)
    {s t : String} {l : EdgePlace}
    (h : EdgePlace.find? d.lines s t label ((d.model.edge? id).map (·.id)) = some l) :
    ∃ removed, d.model.edges[l.position]? = some removed ∧
      removed.source = s ∧ removed.target = t ∧
      (∀ text ∈ label, removed.label = text) ∧
      ∀ edge ∈ d.model.edge? id, removed.id = id := by
  obtain ⟨_, _, removed, hremoved, hends, hlabel, hid⟩ := find?_edgePlaces h
  obtain ⟨hsource, htarget⟩ := Prod.mk.inj hends
  rw [← hd.reads.edges] at hremoved
  refine ⟨removed, hremoved, hsource, htarget, hlabel, ?_⟩
  intro edge hedge
  have hfound := List.find?_some hedge
  rw [hid edge.id (by rw [hedge]; rfl)]
  simpa using hfound

theorem nonneg_singleton
    (position : Nat) :
    ∀ p ∈ [(position : Int)], 0 ≤ p := by
  simp

theorem deleteEdge_reads
    (hd : d.IsReading)
    (h : Editor.deleteEdge d id source target label = .ok (.changed d' created)) :
    ∃ position removed,
      d'.IsReading ∧
      d.model.edges[position]? = some removed ∧
      (source <|> (d.model.edge? id).map (·.source)) = some removed.source ∧
      (target <|> (d.model.edge? id).map (·.target)) = some removed.target ∧
      (∀ text ∈ label, removed.label = text) ∧
      (∀ edge ∈ d.model.edge? id, removed.id = id) ∧
      d'.model.edges = renumberEdges (d.model.edges.eraseIdx position) ∧
      d'.model.declared = d.model.declared ∧
      ∀ n,
        n ∈ d'.model.nodes ∧ n.declared = false ↔
          n ∈ d.model.nodes ∧ n.declared = false ∧ n.id ∈ endpoints d'.model.edges := by
  obtain ⟨s, t, l, hs, ht, hreadable, hl, hlines, hmodel⟩ := deleteEdge_eq_changed h
  obtain ⟨removed, hremoved, hsource, htarget, hlabel, hid⟩ := find?_eq_some hd hl
  have hpositions := nonneg_singleton l.position
  have hkinds :
      d'.lines.map Line.classify =
        LinkStyle.dropKinds [(l.position : Int)] 0 (d.lines.map Line.classify) := by
    rw [hlines]
    exact LinkStyle.map_classify_dropFrom hpositions 0 d.lines
  have hedges :
      renumberEdges (d.model.edges.eraseIdx l.position) =
        Reading.modelEdges (d'.lines.map Line.classify) := by
    rw [hkinds, LinkStyle.modelEdges_dropKinds, LinkStyle.keepOff_singleton, hd.reads.edges]
  have hends :
      ∀ other ∈ endpoints (renumberEdges (d.model.edges.eraseIdx l.position)),
        other ∈ endpoints d.model.edges ∧ (fun _ : String => true) other = true := by
    intro other hend
    rw [endpoints_renumberEdges] at hend
    exact ⟨endpoints_subset (fun _ hedge => List.mem_of_mem_eraseIdx hedge) hend, rfl⟩
  have hreads :=
    @reads_restrict _ (d'.lines.map Line.classify) _ (fun _ => true) _ hd.reads hends
      (by rw [List.filter_true, hkinds, LinkStyle.declarations_dropKinds])
      (fun owner _ => by rw [hkinds, LinkStyle.nodeProperties_dropKinds])
      hedges
  have hparts := @restrict_parts _ _ (fun _ => true) _ hd.reads hends
  have hknown := @mem_completeNodes_restrict _ _ (fun _ => true) _ hd.reads hends
  simp only [List.filter_true] at hreads hparts hknown
  have hnew :
      d'.model =
        ⟨completeNodes d.model.declared (renumberEdges (d.model.edges.eraseIdx l.position))
          d.model.nodes, renumberEdges (d.model.edges.eraseIdx l.position)⟩ := by
    obtain ⟨hnodes, hmodelEdges⟩ := rebuild_eq_ok_iff.mp hmodel
    rw [mapM_keepOrStyle fun n hn => List.mem_map_of_mem (hknown hn).1] at hnodes
    have hnodes := Except.ok.inj hnodes
    rw [hnodes, ← hmodelEdges]
  refine ⟨l.position, removed, ⟨?_, ?_, ?_⟩, hremoved, ?_, ?_, hlabel, hid, ?_, ?_, ?_⟩
  · rw [hlines]
    exact LinkStyle.isOneLine_dropFrom hpositions hd.oneLine 0
  · rw [hlines]
    exact LinkStyle.isReadable_dropFrom hpositions hd.readable 0
  · rw [hnew]
    exact hreads
  · rw [hs, hsource]
  · rw [ht, htarget]
  · rw [hnew]
  · rw [hnew]
    exact hparts.1
  · rw [hnew]
    exact hparts.2

/--
A diagram after the deletion of an edge has the model that its text is read as.
Exactly one edge is gone, one that is asked for; the others keep everything but
their numbers, declared nodes stay, and placeholders stay while an edge mentions them.
-/
theorem deleteEdge_reads_back
    {e : Editor} {text : String}
    (hd : Diagram.ofText text = .ok d)
    (h : e.apply d (.deleteEdge id source target label) = .ok (.changed d' created)) :
    (∃ r, Diagram.ofText d'.text = .ok r ∧ r.model = d'.model) ∧
      (∃ position removed,
        d.model.edges[position]? = some removed ∧
        (source <|> (d.model.edge? id).map (·.source)) = some removed.source ∧
        (target <|> (d.model.edge? id).map (·.target)) = some removed.target ∧
        (∀ text ∈ label, removed.label = text) ∧
        (∀ edge ∈ d.model.edge? id, removed.id = id) ∧
        d'.model.edges.map Edge.unnumbered =
          (d.model.edges.eraseIdx position).map Edge.unnumbered ∧
        d'.model.edges = renumberEdges (d.model.edges.eraseIdx position)) ∧
      d'.model.declared = d.model.declared ∧
      ∀ n,
        n ∈ d'.model.nodes ∧ n.declared = false ↔
          n ∈ d.model.nodes ∧ n.declared = false ∧ n.id ∈ endpoints d'.model.edges := by
  obtain ⟨position, removed, hread, hremoved, hsource, htarget, hlabel, hid, hedges, hdeclared,
    hplaceholders⟩ := deleteEdge_reads (isReading_of_ofText hd) h
  obtain ⟨r, hr, hmodel, _⟩ := hread.ofText_text_model
  refine ⟨⟨r, hr, hmodel⟩, ⟨position, removed, hremoved, hsource, htarget, hlabel, hid, ?_,
    hedges⟩, hdeclared, hplaceholders⟩
  rw [hedges]
  exact map_unnumbered_renumberFrom [] _

/-- Of two equal edges one is gone, and the link style of the other moves down with it. -/
theorem deleteEdge_reads_back_of_parallel_edges :
    ∃ d d' : Diagram,
      Diagram.ofText "linkStyle 1 stroke:#ff0000\nA --> B\nA --> B\nlinkStyle 7 color:#00ff00" =
        .ok d ∧
      ({} : Editor).apply d (.deleteEdge "edge_A_B" none none none) =
        .ok (.changed d' none) ∧
      d'.lines = ["linkStyle 0 stroke:#ff0000", "A --> B", "linkStyle 6 color:#00ff00"] ∧
      (∃ r, Diagram.ofText d'.text = .ok r ∧ r.model = d'.model) ∧
      (∃ position removed,
        d.model.edges[position]? = some removed ∧
        (none <|> (d.model.edge? "edge_A_B").map (·.source)) = some removed.source ∧
        (none <|> (d.model.edge? "edge_A_B").map (·.target)) = some removed.target ∧
        (∀ text ∈ (none : Option String), removed.label = text) ∧
        (∀ edge ∈ d.model.edge? "edge_A_B", removed.id = "edge_A_B") ∧
        d'.model.edges.map Edge.unnumbered =
          (d.model.edges.eraseIdx position).map Edge.unnumbered ∧
        d'.model.edges = renumberEdges (d.model.edges.eraseIdx position)) ∧
      d'.model.declared = d.model.declared ∧
      ∀ n,
        n ∈ d'.model.nodes ∧ n.declared = false ↔
          n ∈ d.model.nodes ∧ n.declared = false ∧ n.id ∈ endpoints d'.model.edges := by
  have hd :
      Diagram.ofText "linkStyle 1 stroke:#ff0000\nA --> B\nA --> B\nlinkStyle 7 color:#00ff00" =
        .ok {
          lines := [
            "linkStyle 1 stroke:#ff0000", "A --> B", "A --> B", "linkStyle 7 color:#00ff00"]
          model := {
            nodes := [placeholder "A", placeholder "B"]
            edges := [
              { id := "edge_A_B", source := "A", target := "B" },
              { id := "edge_A_B_1", source := "A", target := "B",
                style := { lineColor := ⟨"#ff0000", rfl⟩ } }] } } := by
    rfl
  have h :
      ({} : Editor).apply {
          lines := [
            "linkStyle 1 stroke:#ff0000", "A --> B", "A --> B", "linkStyle 7 color:#00ff00"]
          model := {
            nodes := [placeholder "A", placeholder "B"]
            edges := [
              { id := "edge_A_B", source := "A", target := "B" },
              { id := "edge_A_B_1", source := "A", target := "B",
                style := { lineColor := ⟨"#ff0000", rfl⟩ } }] } }
          (.deleteEdge "edge_A_B" none none none) =
        .ok (.changed {
          lines := ["linkStyle 0 stroke:#ff0000", "A --> B", "linkStyle 6 color:#00ff00"]
          model := {
            nodes := [placeholder "A", placeholder "B"]
            edges := [
              { id := "edge_A_B", source := "A", target := "B",
                style := { lineColor := ⟨"#ff0000", rfl⟩ } }] } } none) := by
    rfl
  exact ⟨_, _, hd, h, rfl, deleteEdge_reads_back hd h⟩

end DeleteEdge

/-- Whether an edge neither starts nor ends at a node. -/
def Edge.avoids (id : String) (e : Edge) : Bool :=
  e.source != id && e.target != id

theorem avoids_eq_true_iff
    {e : Edge} {id : String} :
    e.avoids id = true ↔ e.source ≠ id ∧ e.target ≠ id := by
  unfold Edge.avoids
  rw [Bool.and_eq_true, bne_iff_ne, bne_iff_ne]

theorem not_avoids
    (e : Edge) (id : String) :
    (!e.avoids id) = (e.source == id || e.target == id) := by
  unfold Edge.avoids
  rw [Bool.not_and, bne, bne, Bool.not_not, Bool.not_not]

/-- The kinds of lines that say something of a node itself. -/
def Line.isOf (id : String) : Line → Bool
  | .node owner _ => owner == id
  | .style owner _ => owner == id
  | _ => false

theorem isOf_classify
    (id line : String) :
    (declaresNode id line || stylesNode id line) = (Line.classify line).isOf id := by
  unfold declaresNode stylesNode
  cases Line.classify line with
  | node owner body =>
      exact Bool.or_false _
  | _ =>
      rfl

/-- What is not of a node does not miss the lines of it. -/
theorem looksSame_filter_isOf
    (id : String) (kinds : List Line) :
    LooksSame (fun kind => kind.isOf id = true) kinds (kinds.filter (!·.isOf id)) := by
  intro α view _ _ hview
  apply filterMap_filter_of_none
  intro kind hkind
  rw [Bool.not_eq_false'] at hkind
  exact hview kind hkind

/-- Without the lines of a node the other nodes are declared as before. -/
theorem declarations_filter_isOf
    (id : String) (kinds : List Line) :
    Reading.declarations (kinds.filter (!·.isOf id)) =
      (Reading.declarations kinds).filter (·.id != id) := by
  unfold Reading.declarations
  rw [List.filterMap_filter, List.filter_filterMap]
  congr 1
  funext kind
  cases kind with
  | node owner body =>
      by_cases howner : owner = id
      · simp [Line.isOf, howner, Reading.declaredNode, Option.filter]
      · simp [Line.isOf, howner, Reading.declaredNode, Option.filter]
  | style owner properties =>
      by_cases howner : owner = id
      · simp [Line.isOf, howner]
      · simp [Line.isOf, howner]
  | _ =>
      rfl

section DeleteNode

variable {d d' : Diagram} {id : String} {created : Option String}

/-- The positions of the edge lines at a node. -/
def positionsAt (id : String) (lines : List String) : List Int :=
  ((EdgePlace.all lines).filter fun l => l.line.source == id || l.line.target == id).map
    fun l => (l.position : Int)

theorem nonneg_positionsAt
    (id : String) (lines : List String) :
    ∀ p ∈ positionsAt id lines, 0 ≤ p := by
  intro p hp
  obtain ⟨l, _, rfl⟩ := List.mem_map.mp hp
  omega

/-- The positions of the edges at a node are the ranks of those edges. -/
theorem contains_positionsAt
    (hd : d.IsReading)
    {rank : Nat} {edge : Edge}
    (h : d.model.edges[rank]? = some edge) :
    (positionsAt id d.lines).contains (rank : Int) = !edge.avoids id := by
  have hlength : rank < (EdgePlace.all d.lines).length := by
    rw [length_edgePlaces, ← hd.reads.edges]
    exact (List.getElem?_eq_some_iff.mp h).1
  have hl := List.getElem?_eq_getElem hlength
  obtain ⟨_, edge', hedge', _, hsource, htarget, _⟩ := getElem?_edgePlaces hl
  rw [← hd.reads.edges, h] at hedge'
  cases hedge'
  unfold positionsAt
  rw [not_avoids, hsource, htarget, Bool.eq_iff_iff, List.contains_iff_mem,
    mem_positions_iff]
  constructor
  · rintro ⟨l, hl', htouches⟩
    rw [hl] at hl'
    cases hl'
    exact htouches
  · intro htouches
    exact ⟨_, hl, htouches⟩

/-- The ends of the edges that avoid a node are other ends. -/
theorem endpoints_avoids
    {edges : List Edge} {other : String}
    (h : other ∈ endpoints (renumberEdges (edges.filter (·.avoids id)))) :
    other ∈ endpoints edges ∧ other ≠ id := by
  rw [endpoints_renumberEdges] at h
  refine ⟨endpoints_subset (fun _ hedge => List.mem_of_mem_filter hedge) h, ?_⟩
  obtain ⟨edge, hedge, hend⟩ := mem_endpoints.mp h
  obtain ⟨hsource, htarget⟩ := avoids_eq_true_iff.mp (List.mem_filter.mp hedge).2
  rcases hend with rfl | rfl
  · exact hsource
  · exact htarget

section LinesAfterDeletion

/-- What is left of some lines without a node and its edges. -/
def withoutNode (id : String) (lines : List String) : List Line :=
  (LinkStyle.dropKinds (positionsAt id lines) 0 (lines.map Line.classify)).filter (!·.isOf id)

theorem classify_deleted
    (hlines :
      d'.lines =
        (LinkStyle.dropEdges d.lines (positionsAt id d.lines)).filter
          (fun line => !(declaresNode id line || stylesNode id line))) :
    d'.lines.map Line.classify = withoutNode id d.lines := by
  unfold withoutNode
  rw [hlines, ← LinkStyle.map_classify_dropFrom (nonneg_positionsAt id d.lines) 0 d.lines,
    List.filter_map]
  congr 2
  funext line
  rw [isOf_classify]
  rfl

theorem isOneLine_deleted
    (honeLine : ∀ line ∈ d.lines, IsOneLine line)
    (hlines :
      d'.lines =
        (LinkStyle.dropEdges d.lines (positionsAt id d.lines)).filter
          (fun line => !(declaresNode id line || stylesNode id line))) :
    ∀ line ∈ d'.lines, IsOneLine line := by
  intro line hline
  rw [hlines] at hline
  exact LinkStyle.isOneLine_dropFrom (nonneg_positionsAt id d.lines) honeLine 0 line
    (List.mem_of_mem_filter hline)

theorem declarations_withoutNode
    (id : String) (lines : List String) :
    Reading.declarations (withoutNode id lines) =
      (Reading.declarations (lines.map Line.classify)).filter (·.id != id) := by
  unfold withoutNode
  rw [declarations_filter_isOf, LinkStyle.declarations_dropKinds]

theorem nodeProperties_withoutNode
    {owner : String}
    (howner : (owner != id) = true)
    (lines : List String) :
    Line.nodeProperties owner (withoutNode id lines) =
      Line.nodeProperties owner (lines.map Line.classify) := by
  unfold withoutNode
  rw [(looksSame_filter_isOf id _).nodeProperties_eq]
  · exact LinkStyle.nodeProperties_dropKinds owner _ _ _
  · intro kind hkind
    cases kind with
    | style other properties =>
        have hother : other = id := by simpa [Line.isOf] using hkind
        have hne : id ≠ owner := (bne_iff_ne.mp howner).symm
        simp [Line.nodeProperties, hother, hne]
    | _ =>
        rfl

theorem edgeProperties_withoutNode
    (rank : Nat) (lines : List String) :
    Line.edgeProperties rank (withoutNode id lines) =
      Line.edgeProperties rank
        (LinkStyle.dropKinds (positionsAt id lines) 0 (lines.map Line.classify)) := by
  apply (looksSame_filter_isOf id _).edgeProperties_eq
  intro kind hkind
  cases kind with
  | linkStyle index properties =>
      cases hkind
  | _ =>
      rfl

/-- The edges that are left are those off the positions at the node. -/
theorem modelEdges_withoutNode_eq
    (id : String) (lines : List String) :
    Reading.modelEdges (withoutNode id lines) =
      renumberEdges
        (LinkStyle.keepOff (positionsAt id lines) 0
          (Reading.modelEdges (lines.map Line.classify))) := by
  rw [← LinkStyle.modelEdges_dropKinds]
  apply (looksSame_filter_isOf id _).modelEdges_eq
  · intro kind hkind
    cases kind with
    | edge e =>
        cases hkind
    | _ =>
        rfl
  · intro kind hkind rank
    cases kind with
    | linkStyle index properties =>
        cases hkind
    | _ =>
        rfl

/-- The edges that are left are those that avoid the node. -/
theorem modelEdges_withoutNode
    (hd : d.IsReading) :
    Reading.modelEdges (withoutNode id d.lines) =
      renumberEdges (d.model.edges.filter (·.avoids id)) := by
  have hkeep :
      LinkStyle.keepOff (positionsAt id d.lines) 0 d.model.edges =
        d.model.edges.filter (·.avoids id) := by
    apply LinkStyle.keepOff_eq_filter
    intro i edge hedge
    rw [Nat.zero_add]
    exact contains_positionsAt hd hedge
  rw [modelEdges_withoutNode_eq, ← hd.reads.edges, hkeep]

/-- The ends of the edges that avoid a node are ends that were there, and other ids. -/
theorem endpoints_withoutNode
    {edges : List Edge} :
    ∀ other ∈ endpoints (renumberEdges (edges.filter (·.avoids id))),
      other ∈ endpoints edges ∧ (other != id) = true := by
  intro other hother
  obtain ⟨hend, hne⟩ := endpoints_avoids hother
  exact ⟨hend, bne_iff_ne.mpr hne⟩

/-- What is left of the model without a node is read of what is left of the lines. -/
theorem reads_withoutNode
    (hd : d.IsReading) :
    Reading.Reads (withoutNode id d.lines)
      ⟨completeNodes (d.model.declared.filter (·.id != id))
          (renumberEdges (d.model.edges.filter (·.avoids id)))
          (d.model.nodes.filter (·.id != id)),
        renumberEdges (d.model.edges.filter (·.avoids id))⟩ := by
  apply @reads_restrict _ _ _ (· != id) _ hd.reads endpoints_withoutNode
  · exact declarations_withoutNode id d.lines
  · exact fun owner howner => nodeProperties_withoutNode howner d.lines
  · exact (modelEdges_withoutNode hd).symm

theorem deleteNode_reads
    (hd : d.IsReading)
    (h : Editor.deleteNode d id = .ok (.changed d' created)) :
    ∃ m, (Diagram.mk d'.lines m).IsReading ∧
      m.edges = renumberEdges (d.model.edges.filter (·.avoids id)) ∧
      m.declared = d.model.declared.filter (·.id != id) ∧
      (∀ n,
        n ∈ m.nodes ∧ n.declared = false ↔
          n ∈ d.model.nodes ∧ n.declared = false ∧ n.id ∈ endpoints m.edges) ∧
      id ∉ m.nodeIds ∧
      ∀ rank edge, d.model.edges[rank]? = some edge → edge.source ≠ id → edge.target ≠ id →
        Line.edgeProperties ((d.model.edges.take rank).countP (·.avoids id))
            (d'.lines.map Line.classify) =
          Line.edgeProperties rank (d.lines.map Line.classify) := by
  obtain ⟨incident, hreadable, hincident, hlines, _⟩ := deleteNode_eq_changed h
  rw [hincident] at hlines
  have hkinds := classify_deleted hlines
  have hreads := @reads_withoutNode d id hd
  rw [← hkinds] at hreads
  obtain ⟨hdeclared, hplaceholders⟩ :=
    @restrict_parts _ _ (· != id) _ hd.reads endpoints_withoutNode
  have hpositions := nonneg_positionsAt id d.lines
  have honeLine := isOneLine_deleted hd.oneLine hlines
  have hreadable' : IsReadable d'.lines := by
    intro line hline
    rw [hlines] at hline
    exact LinkStyle.isReadable_dropFrom hpositions hd.readable 0 line
      (List.mem_of_mem_filter hline)
  refine ⟨⟨completeNodes (d.model.declared.filter (·.id != id)) _
    (d.model.nodes.filter (·.id != id)), _⟩, ⟨honeLine, hreadable', hreads⟩, rfl, hdeclared,
    hplaceholders, ?_, ?_⟩
  · intro hmem
    obtain ⟨n, hn, hid⟩ := List.mem_map.mp hmem
    have hkeep :=
      (@mem_completeNodes_restrict _ _ (· != id) _ hd.reads endpoints_withoutNode _ hn).2
    rw [hid] at hkeep
    simp at hkeep
  · intro rank edge hedge hsource htarget
    have hrank : rank ≤ d.model.edges.length :=
      Nat.le_of_lt (List.getElem?_eq_some_iff.mp hedge).1
    have hstays : (positionsAt id d.lines).contains (rank : Int) = false := by
      rw [contains_positionsAt hd hedge, avoids_eq_true_iff.mpr ⟨hsource, htarget⟩]
      rfl
    rw [hkinds, edgeProperties_withoutNode,
      ← LinkStyle.shift_eq_countP (fun _ _ h => contains_positionsAt hd h) hrank,
      LinkStyle.edgeProperties_dropKinds hstays 0]

/--
The text after the deletion of a node is read without the node and its edges.  The
other edges keep everything but their numbers, the other declared nodes stay, and
placeholders stay while an edge mentions them.  What link-style lines give to an
edge that stays is what they gave to it before.
-/
theorem deleteNode_reads_back
    {e : Editor} {text : String}
    (hd : Diagram.ofText text = .ok d)
    (h : e.apply d (.deleteNode id) = .ok (.changed d' created)) :
    ∃ r, Diagram.ofText d'.text = .ok r ∧
      id ∉ r.model.nodeIds ∧
      (∀ edge ∈ r.model.edges, edge.source ≠ id ∧ edge.target ≠ id) ∧
      r.model.edges.map Edge.unnumbered =
        (d.model.edges.filter (·.avoids id)).map Edge.unnumbered ∧
      r.model.edges = renumberEdges (d.model.edges.filter (·.avoids id)) ∧
      r.model.declared = d.model.declared.filter (·.id != id) ∧
      (∀ n,
        n ∈ r.model.nodes ∧ n.declared = false ↔
          n ∈ d.model.nodes ∧ n.declared = false ∧ n.id ∈ endpoints r.model.edges) ∧
      ∀ rank edge, d.model.edges[rank]? = some edge → edge.source ≠ id → edge.target ≠ id →
        Line.edgeProperties ((d.model.edges.take rank).countP (·.avoids id))
            (r.lines.map Line.classify) =
          Line.edgeProperties rank (d.lines.map Line.classify) := by
  obtain ⟨m, hread, hedges, hdeclared, hplaceholders, hnodes, hstyles⟩ :=
    deleteNode_reads (isReading_of_ofText hd) h
  obtain ⟨r, hr, rfl, hlines⟩ := hread.ofText_text_model
  refine ⟨r, hr, hnodes, ?_, ?_, hedges, hdeclared, hplaceholders, ?_⟩
  · intro edge hedge
    have hends :
        ∀ other ∈ endpoints r.model.edges, other ≠ id := by
      intro other hother
      rw [hedges] at hother
      exact (endpoints_avoids hother).2
    exact ⟨hends _ (mem_endpoints.mpr ⟨edge, hedge, Or.inl rfl⟩),
      hends _ (mem_endpoints.mpr ⟨edge, hedge, Or.inr rfl⟩)⟩
  · rw [hedges]
    exact map_unnumbered_renumberFrom [] _
  · intro rank edge hedge hsource htarget
    rw [← hstyles rank edge hedge hsource htarget]
    rcases hlines with hsame | ⟨hempty, hnone⟩
    · rw [hsame]
    · dsimp only at hempty
      rw [hnone, hempty, List.map_singleton, Line.classify_of_isBlankLine rfl]
      rfl

/-- A surviving edge keeps its link style under its new rank. -/
theorem deleteNode_reads_back_of_edges :
    ∃ d d' r : Diagram,
      Diagram.ofText "A --> A\nB --> C\nlinkStyle 1 stroke:#ff0000" =
        .ok d ∧
      ({} : Editor).apply d (.deleteNode "A") = .ok (.changed d' none) ∧
      d'.lines = ["B --> C", "linkStyle 0 stroke:#ff0000"] ∧
      Diagram.ofText d'.text = .ok r ∧
      "A" ∉ r.model.nodeIds ∧
      (∀ edge ∈ r.model.edges, edge.source ≠ "A" ∧ edge.target ≠ "A") ∧
      r.model.edges.map Edge.unnumbered =
        (d.model.edges.filter (·.avoids "A")).map Edge.unnumbered ∧
      r.model.edges = renumberEdges (d.model.edges.filter (·.avoids "A")) ∧
      r.model.declared = d.model.declared.filter (·.id != "A") ∧
      (∀ n,
        n ∈ r.model.nodes ∧ n.declared = false ↔
          n ∈ d.model.nodes ∧ n.declared = false ∧ n.id ∈ endpoints r.model.edges) ∧
      ∀ rank edge, d.model.edges[rank]? = some edge → edge.source ≠ "A" → edge.target ≠ "A" →
        Line.edgeProperties ((d.model.edges.take rank).countP (·.avoids "A"))
            (r.lines.map Line.classify) =
          Line.edgeProperties rank (d.lines.map Line.classify) := by
  have hd :
      Diagram.ofText "A --> A\nB --> C\nlinkStyle 1 stroke:#ff0000" =
        .ok {
          lines := ["A --> A", "B --> C", "linkStyle 1 stroke:#ff0000"]
          model := {
            nodes := [placeholder "A", placeholder "B", placeholder "C"]
            edges := [
              { id := "edge_A_A", source := "A", target := "A" },
              { id := "edge_B_C", source := "B", target := "C",
                style := { lineColor := ⟨"#ff0000", rfl⟩ } }] } } := by
    rfl
  have h :
      ({} : Editor).apply {
          lines := ["A --> A", "B --> C", "linkStyle 1 stroke:#ff0000"]
          model := {
            nodes := [placeholder "A", placeholder "B", placeholder "C"]
            edges := [
              { id := "edge_A_A", source := "A", target := "A" },
              { id := "edge_B_C", source := "B", target := "C",
                style := { lineColor := ⟨"#ff0000", rfl⟩ } }] } } (.deleteNode "A") =
        .ok (.changed {
          lines := ["B --> C", "linkStyle 0 stroke:#ff0000"]
          model := {
            nodes := [placeholder "B", placeholder "C"]
            edges := [
              { id := "edge_B_C", source := "B", target := "C",
                style := { lineColor := ⟨"#ff0000", rfl⟩ } }] } } none) := by
    rfl
  obtain ⟨r, hr, hread⟩ := deleteNode_reads_back hd h
  exact ⟨_, _, r, hd, h, rfl, hr, hread⟩

end LinesAfterDeletion

end DeleteNode

end Flowchart
