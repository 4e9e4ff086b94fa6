import Flowchart.Proofs.EdgeIds

/-!
# Addresses of edges

An edge is addressed by its ends and its id.  Ids are counted in several ways: over the
edges of a model, over the locations of edge lines, over a model whose edges are numbered
anew, and with a record of how often each pair of ends was met.  All of them come to the
same ids, so what is addressed in a model is found in its text.

* `map_id_renumberFrom`: a record of the pairs met counts as looking back at them does.
* `find?_of_modelEdges`: an edge line is found by the ends and the id of its edge.
* `edge_numberings_agree`: all numberings of a text agree, and address its edges.
-/

namespace Flowchart

section RecordCount

/-- How often two ends were met, by a record of all pairs that were. -/
def timesMet (met : List ((String × String) × Nat)) (ends : String × String) : Nat :=
  ((met.find? (·.1 == ends)).map (·.2)).getD 0

theorem timesMet_put
    (met : List ((String × String) × Nat)) (key ends : String × String) (n : Nat) :
    timesMet (Record.put key n met) ends = if key = ends then n else timesMet met ends := by
  induction met with
  | nil =>
      by_cases h : key = ends
      · simp [Record.put, timesMet, h]
      · simp [Record.put, timesMet, h]
  | cons entry met ih =>
      obtain ⟨first, m⟩ := entry
      unfold timesMet at ih ⊢
      unfold Record.put
      by_cases hkey : first = key
      · subst hkey
        by_cases h : first = ends
        · simp [h]
        · simp [h]
      · rw [if_neg (by simpa using hkey)]
        by_cases h : first = ends
        · have hne : key ≠ ends := fun heq => hkey (h.trans heq.symm)
          simp [h, hne]
        · simp [h, ih]

/-- The ids of edges by their ends, where a record keeps how often each pair was met. -/
def talliedIds (met : List ((String × String) × Nat)) : List (String × String) → List String
  | [] => []
  | ends :: rest =>
      let earlier := timesMet met ends
      Edge.idFor ends.1 ends.2 earlier :: talliedIds (Record.put ends (earlier + 1) met) rest

/--
A record of the pairs that were met counts as looking back at all edges before does.
After each edge it counts that one, too.
-/
theorem map_id_renumberFrom
    {met : List ((String × String) × Nat)} {before : List Edge}
    (hmet : ∀ ends, timesMet met ends = before.countP (·.joins ends.1 ends.2))
    (edges : List Edge) :
    (renumberFrom before edges).map Edge.id = talliedIds met (edges.map Edge.ends) := by
  induction edges generalizing met before with
  | nil =>
      rfl
  | cons e edges ih =>
      have hid :
          Edge.nextId before e.source e.target =
            Edge.idFor e.source e.target (timesMet met e.ends) :=
        congrArg _ (hmet e.ends).symm
      simp only [renumberFrom, List.map_cons, talliedIds, hid]
      congr 1
      apply ih
      intro ends
      rw [timesMet_put, List.countP_append, ← hmet]
      by_cases h : e.ends = ends
      · subst h
        simp [Edge.joins, Edge.ends]
      · have hother : ¬ (e.source = ends.1 ∧ e.target = ends.2) :=
          fun hends => h (Prod.ext hends.1 hends.2)
        simp [Edge.joins, h, hother]

end RecordCount

section Addresses

/-- An edge line is found by the ends and the id of its edge. -/
theorem find?_of_modelEdges
    {lines : List String} {rank : Nat} {edge : Edge} {l : EdgePlace}
    (hedge : (Reading.modelEdges (lines.map Line.classify))[rank]? = some edge)
    (hl : (EdgePlace.all lines)[rank]? = some l) :
    EdgePlace.find? lines edge.source edge.target none (some edge.id) = some l := by
  obtain ⟨_, same, hsame, hid, hsource, htarget, _⟩ := getElem?_edgePlaces hl
  rw [hedge] at hsame
  cases hsame
  cases hfind : EdgePlace.find? lines edge.source edge.target none (some edge.id) with
  | none =>
      have hnone := List.find?_eq_none.mp hfind l (List.mem_of_getElem? hl)
      simp [EdgePlace.joins, hid, hsource, htarget] at hnone
  | some found =>
      obtain ⟨hplace, _, other, hother, hends, _, hotherId⟩ := find?_edgePlaces hfind
      have hrank : found.position = rank :=
        eq_of_same_id_of_same_ends (areNumbered_modelEdges _) hother hedge hends
          (hotherId edge.id rfl)
      rw [hrank, hl] at hplace
      exact hplace.symm

/-- The edge of a rank has a location of that rank, which says the same of it. -/
theorem exists_edgePlace
    {lines : List String} {rank : Nat} {edge : Edge}
    (hedge : (Reading.modelEdges (lines.map Line.classify))[rank]? = some edge) :
    ∃ l,
      (EdgePlace.all lines)[rank]? = some l ∧
      l.position = rank ∧
      l.id = edge.id ∧
      l.ends = edge.ends ∧
      l.line.label.getD "" = edge.label := by
  have hrank : rank < (EdgePlace.all lines).length := by
    rw [length_edgePlaces]
    exact (List.getElem?_eq_some_iff.mp hedge).1
  have hl := List.getElem?_eq_getElem hrank
  obtain ⟨hposition, same, hsame, hid, hsource, htarget, hlabel⟩ := getElem?_edgePlaces hl
  cases hedge.symm.trans hsame
  exact ⟨_, hl, hposition, hid.symm, Prod.ext hsource.symm htarget.symm, hlabel.symm⟩

/--
All numberings of a text agree.  Every line of a text that was read can be read again, so
its edge lines have locations, as many as there are edges; the location of a rank has the
ends, the label and the id of the edge of that rank.  Numbering the edges anew changes
nothing, a record of the pairs gives the same ids, and so does looking back at the edges
before.  The ends and the id of an edge address its location, also if an edge between
other ends has the same id.
-/
theorem edge_numberings_agree
    {text : String} {d : Diagram}
    (hd : Diagram.ofText text = .ok d) :
    checkReadable d.lines = .ok () ∧
    (EdgePlace.all d.lines).length = d.model.edges.length ∧
    renumberEdges d.model.edges = d.model.edges ∧
    d.model.edges.map (·.id) = talliedIds [] (d.model.edges.map Edge.ends) ∧
    ∀ rank edge, d.model.edges[rank]? = some edge →
      edge.id = Edge.nextId (d.model.edges.take rank) edge.source edge.target ∧
      ∃ l,
        (EdgePlace.all d.lines)[rank]? = some l ∧
        l.position = rank ∧
        l.id = edge.id ∧
        l.ends = edge.ends ∧
        l.line.label.getD "" = edge.label ∧
        EdgePlace.find? d.lines edge.source edge.target none (some edge.id) = some l := by
  have hreading := isReading_of_ofText hd
  have hedges := hreading.reads.edges
  have hnumbered := hreading.areNumbered
  refine ⟨checkReadable_eq_ok_iff.mpr hreading.readable, ?_, hnumbered, ?_, ?_⟩
  · rw [hedges]
    exact length_edgePlaces d.lines
  · have htallied := @map_id_renumberFrom [] [] (fun _ => rfl) d.model.edges
    unfold AreNumbered renumberEdges at hnumbered
    rwa [hnumbered] at htallied
  · intro rank edge hedge
    refine ⟨hnumbered.id_eq hedge, ?_⟩
    rw [hedges] at hedge
    obtain ⟨l, hl, hposition, hid, hends, hlabel⟩ := exists_edgePlace hedge
    exact ⟨l, hl, hposition, hid, hends, hlabel, find?_of_modelEdges hedge hl⟩

/-- Three edges of which two share an id and two share their ends: each has its own address. -/
theorem edge_numberings_agree_of_shared_id :
    ∃ d : Diagram,
      Diagram.ofText "A_B --> C\nA -->|x| B_C\nA_B --> C" = .ok d ∧
      d.model.edges.map (·.id) = ["edge_A_B_C", "edge_A_B_C", "edge_A_B_C_1"] ∧
      talliedIds [] (d.model.edges.map Edge.ends) = d.model.edges.map (·.id) ∧
      ∃ l,
        EdgePlace.find? d.lines "A" "B_C" none (some "edge_A_B_C") = some l ∧
        l.position = 1 ∧
        l.line.label = some "x" := by
  have hd :
      Diagram.ofText "A_B --> C\nA -->|x| B_C\nA_B --> C" =
        .ok {
          lines := ["A_B --> C", "A -->|x| B_C", "A_B --> C"]
          model := {
            nodes := [placeholder "A_B", placeholder "C", placeholder "A", placeholder "B_C"]
            edges := [
              { id := "edge_A_B_C", source := "A_B", target := "C" },
              { id := "edge_A_B_C", source := "A", target := "B_C", label := "x" },
              { id := "edge_A_B_C_1", source := "A_B", target := "C" }] } } := by
    rfl
  obtain ⟨_, _, _, htallied, haddressed⟩ := edge_numberings_agree hd
  obtain ⟨_, l, hl, hposition, _, _, _, hfound⟩ := haddressed 1 _ rfl
  refine ⟨_, hd, rfl, htallied.symm, l, hfound, hposition, ?_⟩
  cases hl
  rfl

end Addresses

end Flowchart
