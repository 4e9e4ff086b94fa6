import Flowchart.LinkStyle
import Flowchart.Proofs.Placeholders
import Flowchart.Proofs.StyleOrder

/-!
# Numbers of edges

The id of an edge counts the edges between the same ends before it.  Three
functions count them: reading edge lines, renumbering edges of a model, and
locating edge lines in a text.  They agree, because what they count depends on
nothing but the ends of the edges that come before.

* `modelEdges_eq`: the edges of a text are its edge lines, styled and then numbered.
* `modelEdges_set`: another edge line between the same ends changes one edge.
* `getElem?_edgePlaces`: the location of a rank is that of the edge of that rank.
* `exists_append_of_edgePlace`: the lines before and after that of a location.
-/

namespace Flowchart

/-- An edge without its number. -/
def Edge.unnumbered (e : Edge) : Edge := { e with id := "" }

/-- The edge of an edge line, without number and style. -/
def EdgeLine.toEdge (e : EdgeLine) : Edge where
  id := ""
  source := e.source
  target := e.target
  label := e.label.getD ""

section Numbering

/-- The next number depends on the ends of the edges before. -/
theorem nextId_congr
    {before before' : List Edge}
    (h : before.map Edge.ends = before'.map Edge.ends)
    (source target : String) :
    Edge.nextId before source target = Edge.nextId before' source target := by
  have hcount :
      ∀ es : List Edge,
        es.countP (·.joins source target) =
          (es.map Edge.ends).countP fun p => p.1 == source && p.2 == target := by
    intro es
    rw [List.countP_map]
    rfl
  unfold Edge.nextId
  rw [hcount, hcount, h]

/-- Numbering changes nothing but the numbers. -/
theorem map_unnumbered_renumberFrom
    (before edges : List Edge) :
    (renumberFrom before edges).map Edge.unnumbered = edges.map Edge.unnumbered := by
  induction edges generalizing before with
  | nil =>
      rfl
  | cons e edges ih =>
      simp only [renumberFrom, List.map_cons, ih]
      rfl

theorem map_ends_of_map_unnumbered
    {edges edges' : List Edge}
    (h : edges.map Edge.unnumbered = edges'.map Edge.unnumbered) :
    edges.map Edge.ends = edges'.map Edge.ends := by
  have hends :
      ∀ es : List Edge, es.map Edge.ends = (es.map Edge.unnumbered).map Edge.ends := by
    intro es
    rw [List.map_map]
    rfl
  rw [hends edges, hends edges', h]

/-- Numbering forgets the numbers there were. -/
theorem renumberFrom_congr
    {before before' edges edges' : List Edge}
    (hbefore : before.map Edge.ends = before'.map Edge.ends)
    (h : edges.map Edge.unnumbered = edges'.map Edge.unnumbered) :
    renumberFrom before edges = renumberFrom before' edges' := by
  induction edges generalizing before before' edges' with
  | nil =>
      rw [List.map_nil, eq_comm, List.map_eq_nil_iff] at h
      rw [h]
      rfl
  | cons e edges ih =>
      cases edges' with
      | nil =>
          simp at h
      | cons e' edges' =>
          rw [List.map_cons, List.map_cons, List.cons.injEq] at h
          obtain ⟨hfirst, hrest⟩ := h
          have hfields :
              e.source = e'.source ∧ e.target = e'.target ∧ e.label = e'.label ∧
                e.style = e'.style := by
            simpa [Edge.unnumbered] using hfirst
          obtain ⟨hsource, htarget, hlabel, hstyle⟩ := hfields
          have hnumbered :
              { e with id := Edge.nextId before e.source e.target } =
                { e' with id := Edge.nextId before' e'.source e'.target } := by
            rw [nextId_congr hbefore, hsource, htarget, hlabel, hstyle]
          unfold renumberFrom
          dsimp only
          rw [hnumbered]
          congr 1
          apply ih _ hrest
          rw [List.map_append, List.map_append, hbefore]

theorem renumberEdges_congr
    {edges edges' : List Edge}
    (h : edges.map Edge.unnumbered = edges'.map Edge.unnumbered) :
    renumberEdges edges = renumberEdges edges' :=
  renumberFrom_congr rfl h

theorem length_renumberEdges
    (edges : List Edge) :
    (renumberEdges edges).length = edges.length := by
  have h := congrArg List.length (map_unnumbered_renumberFrom [] edges)
  rwa [List.length_map, List.length_map] at h

theorem endpoints_renumberEdges
    (edges : List Edge) :
    endpoints (renumberEdges edges) = endpoints edges := by
  apply endpoints_congr
  apply map_ends_of_map_unnumbered
  exact map_unnumbered_renumberFrom [] edges

theorem renumberFrom_append
    (before edges edges' : List Edge) :
    renumberFrom before (edges ++ edges') =
      renumberFrom before edges ++ renumberFrom (before ++ renumberFrom before edges) edges' := by
  induction edges generalizing before with
  | nil =>
      simp [renumberFrom]
  | cons e edges ih =>
      simp only [List.cons_append, renumberFrom, ih, List.append_assoc, List.nil_append]

/-- The number of a numbered edge counts what stands before it. -/
theorem getElem?_renumberFrom
    (before edges : List Edge) (rank : Nat) :
    (renumberFrom before edges)[rank]? =
      edges[rank]?.map fun e =>
        { e with id := Edge.nextId (before ++ edges.take rank) e.source e.target } := by
  induction edges generalizing before rank with
  | nil =>
      rfl
  | cons e edges ih =>
      unfold renumberFrom
      cases rank with
      | zero =>
          simp
      | succ rank =>
          rw [List.getElem?_cons_succ, List.getElem?_cons_succ, ih]
          congr 1
          funext other
          rw [nextId_congr]
          simp [Edge.ends]

/-- Reading edge lines numbers their edges. -/
theorem edgesFrom_eq
    (before : List Edge) (lines : List EdgeLine) :
    Reading.edgesFrom before lines =
      before ++ renumberFrom before (lines.map EdgeLine.toEdge) := by
  induction lines generalizing before with
  | nil =>
      simp [Reading.edgesFrom, renumberFrom]
  | cons e lines ih =>
      unfold Reading.edgesFrom
      rw [ih, List.append_assoc]
      rfl

/-- A member may be replaced by one that is mapped to the same. -/
theorem map_set_eq_map
    {α β : Type} {f : α → β} {xs : List α} {i : Nat} {x y : α}
    (hx : xs[i]? = some x)
    (h : f y = f x) :
    (xs.set i y).map f = xs.map f := by
  apply List.ext_getElem?
  intro j
  rw [List.getElem?_map, List.getElem?_map]
  by_cases heq : j = i
  · rw [heq, List.getElem?_set_self (List.getElem?_eq_some_iff.mp hx).1, hx, Option.map_some,
      Option.map_some, h]
  · rw [List.getElem?_set_ne (Ne.symm heq)]

end Numbering

theorem map_ends_restyle
    (f : Nat → EdgeStyle → EdgeStyle) (edges : List Edge) :
    (restyle f edges).map Edge.ends = edges.map Edge.ends := by
  apply List.ext_getElem?
  intro rank
  unfold restyle
  rw [List.getElem?_map, List.getElem?_mapIdx, List.getElem?_map, Option.map_map]
  rfl

theorem map_id_restyle
    (f : Nat → EdgeStyle → EdgeStyle) (edges : List Edge) :
    (restyle f edges).map Edge.id = edges.map Edge.id := by
  apply List.ext_getElem?
  intro rank
  unfold restyle
  rw [List.getElem?_map, List.getElem?_mapIdx, List.getElem?_map, Option.map_map]
  rfl

/-- It does not matter whether edges are styled or numbered first. -/
theorem restyle_renumberFrom
    (f : Nat → EdgeStyle → EdgeStyle)
    {before before' : List Edge} (edges : List Edge)
    (h : before.map Edge.ends = before'.map Edge.ends) :
    restyle f (renumberFrom before edges) = renumberFrom before' (restyle f edges) := by
  induction edges generalizing before before' f with
  | nil =>
      rfl
  | cons e edges ih =>
      unfold restyle at ih ⊢
      simp only [renumberFrom, List.mapIdx_cons]
      rw [nextId_congr h]
      congr 1
      apply ih fun rank => f (rank + 1)
      rw [List.map_append, List.map_append, h]
      rfl

namespace Reading

/-- The edges of some lines without their numbers. -/
def lineEdges (lines : List Line) : List Edge :=
  styleEdges lines ((Line.edges lines).map EdgeLine.toEdge)

/-- The edges of some lines. -/
def modelEdges (lines : List Line) : List Edge :=
  styleEdges lines (edgesFrom [] (Line.edges lines))

/-- The edges of a text are its edge lines, styled and then numbered. -/
theorem modelEdges_eq
    (lines : List Line) :
    modelEdges lines = renumberEdges (lineEdges lines) := by
  unfold modelEdges lineEdges
  rw [edgesFrom_eq, List.nil_append, styleEdges_eq, styleEdges_eq]
  exact restyle_renumberFrom _ _ rfl

theorem map_unnumbered_lineEdges
    (lines : List Line) :
    (lineEdges lines).map Edge.unnumbered = lineEdges lines := by
  apply List.ext_getElem?
  intro rank
  unfold lineEdges
  rw [styleEdges_eq]
  unfold restyle
  simp only [List.getElem?_map, List.getElem?_mapIdx, Option.map_map]
  rfl

theorem map_unnumbered_modelEdges
    (lines : List Line) :
    (modelEdges lines).map Edge.unnumbered = lineEdges lines := by
  rw [modelEdges_eq]
  unfold renumberEdges
  rw [map_unnumbered_renumberFrom, map_unnumbered_lineEdges]

theorem map_ends_modelEdges
    (lines : List Line) :
    (modelEdges lines).map Edge.ends =
      (Line.edges lines).map fun e => (e.source, e.target) := by
  have hends : (modelEdges lines).map Edge.ends = (lineEdges lines).map Edge.ends := by
    apply map_ends_of_map_unnumbered
    rw [map_unnumbered_modelEdges, map_unnumbered_lineEdges]
  unfold lineEdges at hends
  rw [hends, styleEdges_eq, map_ends_restyle, List.map_map]
  rfl

theorem length_modelEdges
    (lines : List Line) :
    (modelEdges lines).length = (Line.edges lines).length := by
  have h := congrArg List.length (map_ends_modelEdges lines)
  simpa using h

/-- The edges depend on the edge lines and on what is given to their ranks. -/
theorem modelEdges_congr
    {lines lines' : List Line}
    (hedges : Line.edges lines = Line.edges lines')
    (hstyles : ∀ rank, Line.edgeProperties rank lines = Line.edgeProperties rank lines') :
    modelEdges lines = modelEdges lines' := by
  unfold modelEdges
  rw [styleEdges_eq, styleEdges_eq, hedges]
  congr 1
  funext rank s
  rw [hstyles rank]

/-- A further edge line gives a further edge, with the style that waits for its rank. -/
theorem modelEdges_append
    {lines lines' : List Line} {e : EdgeLine}
    (hedges : Line.edges lines' = Line.edges lines ++ [e])
    (hstyles : ∀ rank, Line.edgeProperties rank lines' = Line.edgeProperties rank lines) :
    modelEdges lines' =
      modelEdges lines ++ [{
        e.toEdge with
        id := Edge.nextId (modelEdges lines) e.source e.target
        style :=
          EdgeStyle.overwriteAll {}
            (Line.edgeProperties (modelEdges lines).length lines) }] := by
  have hlines :
      edgesFrom [] (Line.edges lines') =
        edgesFrom [] (Line.edges lines) ++ [{
          e.toEdge with
          id := Edge.nextId (edgesFrom [] (Line.edges lines)) e.source e.target }] := by
    rw [hedges, edgesFrom_eq, edgesFrom_eq, List.map_append, renumberFrom_append]
    rfl
  have hid :
      Edge.nextId (edgesFrom [] (Line.edges lines)) e.source e.target =
        Edge.nextId (modelEdges lines) e.source e.target := by
    apply nextId_congr
    unfold modelEdges
    rw [styleEdges_eq, map_ends_restyle]
  have hlength :
      (edgesFrom [] (Line.edges lines)).length = (modelEdges lines).length := by
    unfold modelEdges
    rw [styleEdges_eq, restyle, List.length_mapIdx]
  have hmodel : modelEdges lines' = styleEdges lines (edgesFrom [] (Line.edges lines')) := by
    unfold modelEdges
    rw [styleEdges_eq, styleEdges_eq]
    congr 1
    funext rank s
    rw [hstyles rank]
  rw [hmodel, hlines, styleEdges_eq, restyle, List.mapIdx_append, hid, ← hlength]
  congr 1
  · exact (styleEdges_eq lines _).symm
  · simp [EdgeLine.toEdge]

/-- The edge of a rank is that of the edge line, with its number and its style. -/
theorem getElem?_modelEdges
    (lines : List Line) (rank : Nat) :
    (modelEdges lines)[rank]? =
      (Line.edges lines)[rank]?.map fun e => {
        e.toEdge with
        id := Edge.nextId (((Line.edges lines).map EdgeLine.toEdge).take rank) e.source e.target
        style := EdgeStyle.overwriteAll {} (Line.edgeProperties rank lines) } := by
  unfold modelEdges
  rw [edgesFrom_eq, List.nil_append, styleEdges_eq, restyle, List.getElem?_mapIdx,
    getElem?_renumberFrom, List.nil_append, List.getElem?_map, Option.map_map, Option.map_map]
  rfl

/--
Another edge line between the same ends gives the edge of its rank label and style.  The
ends are the same at every rank, so every edge keeps its number.
-/
theorem modelEdges_set
    {lines lines' : List Line} {position : Nat} {edge : Edge} {e : EdgeLine}
    (hedge : (modelEdges lines)[position]? = some edge)
    (hends : e.source = edge.source ∧ e.target = edge.target)
    (hedges : Line.edges lines' = (Line.edges lines).set position e)
    (hstyles :
      ∀ rank, rank ≠ position →
        Line.edgeProperties rank lines' = Line.edgeProperties rank lines) :
    modelEdges lines' =
      (modelEdges lines).set position {
        edge with
        label := e.label.getD ""
        style := EdgeStyle.overwriteAll {} (Line.edgeProperties position lines') } := by
  rw [getElem?_modelEdges] at hedge
  obtain ⟨old, hold, rfl⟩ := Option.map_eq_some_iff.mp hedge
  have hsource : e.source = old.source := hends.1
  have htarget : e.target = old.target := hends.2
  have hrank := (List.getElem?_eq_some_iff.mp hold).1
  have hbefore :
      ((Line.edges lines').map EdgeLine.toEdge).map Edge.ends =
        ((Line.edges lines).map EdgeLine.toEdge).map Edge.ends := by
    rw [hedges, List.map_map, List.map_map]
    exact map_set_eq_map hold (Prod.ext hsource htarget)
  have hid :
      ∀ (rank : Nat) (source target : String),
        Edge.nextId (((Line.edges lines').map EdgeLine.toEdge).take rank) source target =
          Edge.nextId (((Line.edges lines).map EdgeLine.toEdge).take rank) source target := by
    intro rank source target
    apply nextId_congr
    rw [List.map_take, List.map_take, hbefore]
  apply List.ext_getElem?
  intro rank
  rw [getElem?_modelEdges]
  simp only [hid]
  by_cases heq : rank = position
  · have hlength : position < (modelEdges lines).length := by
      rw [length_modelEdges]
      exact hrank
    rw [heq, hedges, List.getElem?_set_self hrank, List.getElem?_set_self hlength,
      Option.map_some]
    simp only [EdgeLine.toEdge, hsource, htarget]
  · rw [hedges, List.getElem?_set_ne (Ne.symm heq), List.getElem?_set_ne (Ne.symm heq),
      getElem?_modelEdges, hstyles rank heq]

end Reading

section Locations

/-- The ends of an edge line that stands somewhere. -/
def EdgePlace.ends (l : EdgePlace) : String × String := (l.line.source, l.line.target)

/-- Locations are numbered as the edges of the edge lines are. -/
theorem idFor_edgePlace
    {before : List EdgePlace} {edges : List Edge}
    (h : before.map EdgePlace.ends = edges.map Edge.ends)
    (source target : String) :
    Edge.idFor source target (before.countP (·.joins source target)) =
      Edge.nextId edges source target := by
  have hplaces :
      before.countP (·.joins source target) =
        (before.map EdgePlace.ends).countP fun p => p.1 == source && p.2 == target := by
    rw [List.countP_map]
    rfl
  have hedges :
      edges.countP (·.joins source target) =
        (edges.map Edge.ends).countP fun p => p.1 == source && p.2 == target := by
    rw [List.countP_map]
    rfl
  unfold Edge.nextId
  rw [hplaces, hedges, h]

/-- The location of an edge line that comes after some others. -/
def EdgePlace.next (before : List EdgePlace) (number : Nat) (e : EdgeLine) : EdgePlace where
  lineNumber := number
  position := before.length
  line := e
  id := Edge.idFor e.source e.target (before.countP (·.joins e.source e.target))

theorem listFrom_cons
    (before : List EdgePlace) (number : Nat) (line : String) (lines : List String) :
    EdgePlace.listFrom before number (line :: lines) =
      match Line.classify line with
      | .edge e =>
          EdgePlace.listFrom (before ++ [EdgePlace.next before number e]) (number + 1) lines
      | _ => EdgePlace.listFrom before (number + 1) lines := by
  rfl

theorem listFrom_cons_of_edge
    {line : String} {e : EdgeLine}
    (h : Line.classify line = .edge e)
    (before : List EdgePlace) (number : Nat) (lines : List String) :
    EdgePlace.listFrom before number (line :: lines) =
      EdgePlace.listFrom (before ++ [EdgePlace.next before number e]) (number + 1) lines := by
  rw [listFrom_cons, h]

theorem listFrom_cons_of_not_edge
    {line : String}
    (h : ∀ e, Line.classify line ≠ .edge e)
    (before : List EdgePlace) (number : Nat) (lines : List String) :
    EdgePlace.listFrom before number (line :: lines) =
      EdgePlace.listFrom before (number + 1) lines := by
  rw [listFrom_cons]
  split
  · rename_i e he
    exact absurd he (h e)
  · rfl

theorem Line.edges_append
    (kinds kinds' : List Line) :
    edges (kinds ++ kinds') = edges kinds ++ edges kinds' :=
  List.filterMap_append

theorem Line.edgeProperties_append
    (rank : Nat) (kinds kinds' : List Line) :
    edgeProperties rank (kinds ++ kinds') =
      edgeProperties rank kinds ++ edgeProperties rank kinds' :=
  List.filterMap_append

theorem Line.edgeProperties_cons
    (rank index : Nat) (properties : Properties) (kinds : List Line) :
    edgeProperties rank (.linkStyle index properties :: kinds) =
      if index = rank then properties :: edgeProperties rank kinds
      else edgeProperties rank kinds := by
  unfold edgeProperties
  rw [List.filterMap_cons]
  by_cases heq : index = rank <;> simp [heq]

theorem Line.edges_cons_of_edge
    {line : String} {e : EdgeLine}
    (h : Line.classify line = .edge e)
    (lines : List String) :
    edges ((line :: lines).map classify) = e :: edges (lines.map classify) := by
  simp [edges, h]

theorem Line.edges_cons_of_not_edge
    {line : String}
    (h : ∀ e, Line.classify line ≠ .edge e)
    (lines : List String) :
    edges ((line :: lines).map classify) = edges (lines.map classify) := by
  unfold edges
  rw [List.map_cons, List.filterMap_cons]
  cases hkind : classify line with
  | edge e =>
      exact absurd hkind (h e)
  | _ =>
      rfl

/--
The locations after some earlier ones: their lines are the edge lines, their
positions count up, and their ids are those of the edges.
-/
theorem listFrom_spec
    {before : List EdgePlace} {edges : List Edge}
    (hends : before.map EdgePlace.ends = edges.map Edge.ends)
    (hids : before.map EdgePlace.id = edges.map Edge.id)
    (hpositions : before.map EdgePlace.position = List.range before.length)
    (number : Nat) (lines : List String) :
    (EdgePlace.listFrom before number lines).map EdgePlace.line =
        before.map EdgePlace.line ++ Line.edges (lines.map Line.classify) ∧
      (EdgePlace.listFrom before number lines).map EdgePlace.position =
        List.range (EdgePlace.listFrom before number lines).length ∧
      (EdgePlace.listFrom before number lines).map EdgePlace.id =
        (Reading.edgesFrom edges (Line.edges (lines.map Line.classify))).map Edge.id := by
  induction lines generalizing before edges number with
  | nil =>
      have hnil : EdgePlace.listFrom before number [] = before := by
        rfl
      have hedges : Line.edges (([] : List String).map Line.classify) = [] := by
        rfl
      rw [hnil, hedges, List.append_nil]
      exact ⟨rfl, hpositions, hids⟩
  | cons line lines ih =>
      by_cases hedge : ∃ e, Line.classify line = .edge e
      · obtain ⟨e, he⟩ := hedge
        have hid := idFor_edgePlace hends e.source e.target
        rw [Line.edges_cons_of_edge he, listFrom_cons_of_edge he]
        have hstep :=
          @ih (before ++ [EdgePlace.next before number e])
            (edges ++ [{ e.toEdge with id := Edge.nextId edges e.source e.target }])
            (by simp [hends, EdgePlace.ends, EdgePlace.next, Edge.ends, EdgeLine.toEdge])
            (by simp [hids, EdgePlace.next, hid])
            (by simp [hpositions, EdgePlace.next, List.range_succ])
            (number + 1)
        refine ⟨?_, hstep.2.1, hstep.2.2⟩
        rw [hstep.1]
        simp [EdgePlace.next]
      · have hother : ∀ e, Line.classify line ≠ .edge e := fun e he => hedge ⟨e, he⟩
        rw [Line.edges_cons_of_not_edge hother, listFrom_cons_of_not_edge hother]
        exact ih hends hids hpositions (number + 1)

theorem length_edgePlaces
    (lines : List String) :
    (EdgePlace.all lines).length =
      (Reading.modelEdges (lines.map Line.classify)).length := by
  obtain ⟨hlines, _, _⟩ := @listFrom_spec [] [] rfl rfl rfl 0 lines
  have hlength := congrArg List.length hlines
  rw [List.map_nil, List.nil_append, List.length_map] at hlength
  rw [Reading.length_modelEdges]
  exact hlength

/-- The location of a rank is that of the edge of that rank. -/
theorem getElem?_edgePlaces
    {lines : List String} {rank : Nat} {l : EdgePlace}
    (h : (EdgePlace.all lines)[rank]? = some l) :
    l.position = rank ∧
      ∃ edge, (Reading.modelEdges (lines.map Line.classify))[rank]? = some edge ∧
        edge.id = l.id ∧ edge.source = l.line.source ∧ edge.target = l.line.target ∧
        edge.label = l.line.label.getD "" := by
  obtain ⟨hlines, hpositions, hids⟩ :=
    @listFrom_spec [] [] rfl rfl rfl 0 lines
  have hranks : (EdgePlace.listFrom [] 0 lines)[rank]? = some l := h
  have hrank := (List.getElem?_eq_some_iff.mp h).1
  have hline : (Line.edges (lines.map Line.classify))[rank]? = some l.line := by
    have hmap := congrArg (·[rank]?) hlines
    rw [List.getElem?_map, hranks] at hmap
    simpa using hmap.symm
  have hid :
      ((Reading.modelEdges (lines.map Line.classify))[rank]?).map Edge.id = some l.id := by
    have hmap := congrArg (·[rank]?) hids
    rw [List.getElem?_map, hranks] at hmap
    unfold Reading.modelEdges
    rw [Reading.styleEdges_eq, ← List.getElem?_map, map_id_restyle]
    exact hmap.symm
  have hposition : l.position = rank := by
    have hmap := congrArg (·[rank]?) hpositions
    rw [List.getElem?_map, hranks, List.getElem?_range] at hmap
    · simpa using hmap
    · exact hrank
  obtain ⟨edge, hedge, hedgeId⟩ := Option.map_eq_some_iff.mp hid
  have hplain := congrArg (·[rank]?) (Reading.map_unnumbered_modelEdges (lines.map Line.classify))
  unfold Reading.lineEdges at hplain
  rw [Reading.styleEdges_eq, restyle, List.getElem?_map, hedge, List.getElem?_mapIdx,
    List.getElem?_map, hline] at hplain
  have hfields :
      edge.source = l.line.source ∧ edge.target = l.line.target ∧
        edge.label = l.line.label.getD "" := by
    simp only [Option.map_some, Option.some.injEq, Edge.unnumbered, EdgeLine.toEdge,
      Edge.mk.injEq] at hplain
    exact ⟨hplain.2.1, hplain.2.2.1, hplain.2.2.2.1⟩
  exact ⟨hposition, edge, hedge, hedgeId, hfields⟩

/-- The location that is found stands at its own position, and its edge is asked for. -/
theorem find?_edgePlaces
    {lines : List String} {source target : String} {label id : Option String} {l : EdgePlace}
    (h : EdgePlace.find? lines source target label id = some l) :
    (EdgePlace.all lines)[l.position]? = some l ∧ l.ends = (source, target) ∧
      ∃ edge, (Reading.modelEdges (lines.map Line.classify))[l.position]? = some edge ∧
        edge.ends = (source, target) ∧
        (∀ text ∈ label, edge.label = text) ∧ ∀ other ∈ id, edge.id = other := by
  obtain ⟨rank, hrank⟩ := List.mem_iff_getElem?.mp (List.mem_of_find?_eq_some h)
  obtain ⟨rfl, edge, hedge, hid, hsource, htarget, hlabel⟩ := getElem?_edgePlaces hrank
  have hmatches := List.find?_some h
  simp only [Bool.and_eq_true, EdgePlace.joins, beq_iff_eq, Option.all_eq_true] at hmatches
  obtain ⟨⟨⟨hs, ht⟩, hlabels⟩, hids⟩ := hmatches
  refine ⟨hrank, Prod.ext hs ht, edge, hedge, Prod.ext (hsource.trans hs) (htarget.trans ht),
    ?_, ?_⟩
  · intro text htext
    rw [hlabel, hlabels text htext]
  · intro other hother
    rw [hid, hids other hother]

/-- The positions of some locations are the ranks at which they stand. -/
theorem mem_positions_iff
    {lines : List String} {p : EdgePlace → Bool} {rank : Nat} :
    (rank : Int) ∈
        ((EdgePlace.all lines).filter p).map (fun l => (l.position : Int)) ↔
      ∃ l, (EdgePlace.all lines)[rank]? = some l ∧ p l = true := by
  rw [List.mem_map]
  constructor
  · rintro ⟨l, hl, hposition⟩
    obtain ⟨hmem, hp⟩ := List.mem_filter.mp hl
    obtain ⟨i, hi⟩ := List.mem_iff_getElem?.mp hmem
    have hrank : i = rank := by
      have := (getElem?_edgePlaces hi).1
      omega
    rw [hrank] at hi
    exact ⟨l, hi, hp⟩
  · rintro ⟨l, hl, hp⟩
    refine ⟨l, List.mem_filter.mpr ⟨List.mem_of_getElem? hl, hp⟩, ?_⟩
    rw [(getElem?_edgePlaces hl).1]

end Locations

section Surroundings

theorem listFrom_append
    (before : List EdgePlace) (number : Nat) (front back : List String) :
    EdgePlace.listFrom before number (front ++ back) =
      EdgePlace.listFrom (EdgePlace.listFrom before number front) (number + front.length)
        back := by
  induction front generalizing before number with
  | nil =>
      rfl
  | cons line front ih =>
      rw [List.cons_append, listFrom_cons, listFrom_cons, List.length_cons,
        Nat.add_comm front.length, ← Nat.add_assoc]
      cases Line.classify line with
      | edge e =>
          exact ih _ _
      | _ =>
          exact ih _ _

theorem prefix_listFrom
    (before : List EdgePlace) (number : Nat) (lines : List String) :
    before <+: EdgePlace.listFrom before number lines := by
  induction lines generalizing before number with
  | nil =>
      exact List.prefix_rfl
  | cons line lines ih =>
      rw [listFrom_cons]
      cases Line.classify line with
      | edge e =>
          exact (List.prefix_append before _).trans (ih _ _)
      | _ =>
          exact ih _ _

/-- The location of an edge line: its line number counts lines, its rank edge lines. -/
theorem getElem?_edgePlaces_append
    {line : String} {e : EdgeLine}
    (h : Line.classify line = .edge e)
    (front back : List String) :
    ∃ l,
      (EdgePlace.all (front ++ line :: back))[(Line.edges
        (front.map Line.classify)).length]? = some l ∧
      l.lineNumber = front.length ∧ l.line = e := by
  have hlength : (EdgePlace.all front).length = (Line.edges (front.map Line.classify)).length := by
    rw [length_edgePlaces, Reading.length_modelEdges]
  have hplaces :
      EdgePlace.all (front ++ line :: back) =
        EdgePlace.listFrom
          (EdgePlace.all front ++ [EdgePlace.next (EdgePlace.all front) front.length e])
          (front.length + 1) back := by
    unfold EdgePlace.all
    rw [listFrom_append, Nat.zero_add, listFrom_cons_of_edge h]
  obtain ⟨rest, hrest⟩ :=
    prefix_listFrom (EdgePlace.all front ++ [EdgePlace.next (EdgePlace.all front) front.length e])
      (front.length + 1) back
  refine ⟨EdgePlace.next (EdgePlace.all front) front.length e, ?_, rfl, rfl⟩
  rw [hplaces, ← hrest, ← hlength, List.append_assoc, List.getElem?_append_right (Nat.le_refl _),
    Nat.sub_self]
  rfl

/-- Before the edge line of a rank there are as many edge lines. -/
theorem exists_append_of_rank
    {lines : List String} {rank : Nat}
    (h : rank < (Line.edges (lines.map Line.classify)).length) :
    ∃ front line back e,
      lines = front ++ line :: back ∧ Line.classify line = .edge e ∧
      (Line.edges (front.map Line.classify)).length = rank := by
  induction lines generalizing rank with
  | nil =>
      exact absurd h (Nat.not_lt_zero rank)
  | cons line lines ih =>
      by_cases hedge : ∃ e, Line.classify line = .edge e
      · obtain ⟨e, he⟩ := hedge
        cases rank with
        | zero =>
            exact ⟨[], line, lines, e, rfl, he, rfl⟩
        | succ rank =>
            rw [Line.edges_cons_of_edge he, List.length_cons] at h
            obtain ⟨front, found, back, e', rfl, he', hrank⟩ := ih (Nat.lt_of_succ_lt_succ h)
            refine ⟨line :: front, found, back, e', rfl, he', ?_⟩
            rw [Line.edges_cons_of_edge he, List.length_cons, hrank]
      · have hother : ∀ e, Line.classify line ≠ .edge e := fun e he => hedge ⟨e, he⟩
        rw [Line.edges_cons_of_not_edge hother] at h
        obtain ⟨front, found, back, e, rfl, he, hrank⟩ := ih h
        refine ⟨line :: front, found, back, e, rfl, he, ?_⟩
        rw [Line.edges_cons_of_not_edge hother, hrank]

/-- The lines before and after that of a location. -/
theorem exists_append_of_edgePlace
    {lines : List String} {rank : Nat} {l : EdgePlace}
    (h : (EdgePlace.all lines)[rank]? = some l) :
    ∃ front line back,
      lines = front ++ line :: back ∧ front.length = l.lineNumber ∧
      Line.classify line = .edge l.line ∧
      (Line.edges (front.map Line.classify)).length = rank := by
  have hrank := (List.getElem?_eq_some_iff.mp h).1
  rw [length_edgePlaces, Reading.length_modelEdges] at hrank
  obtain ⟨front, line, back, e, rfl, he, rfl⟩ := exists_append_of_rank hrank
  obtain ⟨l', hl', hnumber, hline⟩ := getElem?_edgePlaces_append he front back
  rw [h] at hl'
  cases hl'
  exact ⟨front, line, back, rfl, hnumber.symm, by rw [hline, he], rfl⟩

end Surroundings

end Flowchart
