import Flowchart.Diagram

/-!
# The graph of a model

The graph has the nodes of a model and the ends of its edges.  Parallel edges are
told apart by their ids: an edge with the ends and the id of an earlier one takes
its place.  Nodes come in the order in which they are added, neighbours in the
order in which they are first joined, and edges by source, then by target, then in
the order of their ids.
-/

namespace Flowchart

/-- An edge of the graph: its ends, its id, its label, and its place in the model. -/
structure Arc where
  source : String
  target : String
  id : String
  label : String
  position : Nat
deriving DecidableEq, Repr

/-- A graph: nodes, with the facts of those that a model holds, and arcs in order of addition. -/
structure Graph where
  nodes : List (String × Option Node)
  arcs : List Arc
deriving Repr

namespace Graph

/-- Adds a node without facts unless it is there. -/
def addEnd (nodes : List (String × Option Node)) (id : String) : List (String × Option Node) :=
  if nodes.any (·.1 == id) then nodes else nodes ++ [(id, none)]

/-- Adds an arc, in the place of one with the same ends and the same id. -/
def addArc (a : Arc) : List Arc → List Arc
  | [] => [a]
  | b :: arcs =>
      if b.source == a.source && b.target == a.target && b.id == a.id then a :: arcs
      else b :: addArc a arcs

/-- The graph of a model. -/
def ofModel (m : Model) : Graph where
  nodes :=
    (endpoints m.edges).foldl addEnd
      (m.nodes.foldl (fun nodes n => Record.put n.id (some n) nodes) [])
  arcs :=
    m.edges.zipIdx.foldl
      (fun arcs (e, position) => addArc ⟨e.source, e.target, e.id, e.label, position⟩ arcs) []

/-- The ids of the nodes, in order. -/
def nodeIds (g : Graph) : List String := g.nodes.map (·.1)

/-- The arcs that leave a node. -/
def leaving (g : Graph) (id : String) : List Arc := g.arcs.filter (·.source == id)

/-- The arcs that enter a node. -/
def entering (g : Graph) (id : String) : List Arc := g.arcs.filter (·.target == id)

/-- The nodes to which arcs lead from a node, each once. -/
def successors (g : Graph) (id : String) : List String :=
  ((g.leaving id).map (·.target)).eraseDups

/-- The nodes from which arcs lead to a node, each once. -/
def predecessors (g : Graph) (id : String) : List String :=
  ((g.entering id).map (·.source)).eraseDups

/-- The number of arcs from one node to another. -/
def multiplicity (g : Graph) (source target : String) : Nat :=
  (g.leaving source).countP (·.target == target)

/-- The arcs by source, then by target, then in order of addition. -/
def sortedArcs (g : Graph) : List Arc :=
  g.nodeIds.flatMap fun source =>
    (g.successors source).flatMap fun target =>
      (g.leaving source).filter (·.target == target)

/-- The nodes that no arc enters. -/
def roots (g : Graph) : List String :=
  g.nodeIds.filter fun id => (g.entering id).isEmpty

/-- The nodes that no arc leaves. -/
def leaves (g : Graph) : List String :=
  g.nodeIds.filter fun id => (g.leaving id).isEmpty

section TopologicalOrder

/-- Numbers of arcs still to come into the nodes that are not free yet. -/
abbrev Waiting := List (String × Nat)

/-- Lowers the number of a node; a node that reaches zero is free and leaves the list. -/
def lower (id : String) (count : Nat) : Waiting → Waiting × Bool
  | [] => ([], false)
  | (other, n) :: rest =>
      if other == id then
        if n ≤ count then (rest, true) else ((other, n - count) :: rest, false)
      else
        let (rest, free) := lower id count rest
        ((other, n) :: rest, free)

/-- Takes the arcs of one node away; its successors that become free follow in order. -/
def release (g : Graph) (state : Waiting × List String) (id : String) : Waiting × List String :=
  (g.successors id).foldl (fun (waiting, freed) target =>
    let (waiting, free) := lower target (g.multiplicity id target) waiting
    (waiting, if free then freed ++ [target] else freed)) state

/--
Generation after generation, starting with the nodes that are free; `fuel` bounds
the number of generations.  The nodes that are still waiting at the end lie on or
behind a cycle.
-/
def generations (g : Graph) : (fuel : Nat) → Waiting → List String → List String × Waiting
  | 0, waiting, _ => ([], waiting)
  | _, waiting, [] => ([], waiting)
  | fuel + 1, waiting, free =>
      let (waiting, next) := free.foldl g.release (waiting, [])
      let (later, stuck) := generations g fuel waiting next
      (free ++ later, stuck)

/-- The nodes sorted by generations, and those that never become free. -/
def sorted (g : Graph) : List String × Waiting :=
  let waiting := g.nodeIds.filterMap fun id =>
    let n := (g.entering id).length
    if n = 0 then none else some (id, n)
  g.generations (g.nodes.length + 1) waiting g.roots

/-- Whether some arcs form a directed cycle. -/
def hasCycle (g : Graph) : Bool := !g.sorted.2.isEmpty

/-- The nodes with sources before targets; in the order of addition if there is a cycle. -/
def topologicalOrder (g : Graph) : List String :=
  if g.hasCycle then g.nodeIds else g.sorted.1

/-- The ids of the edges of the model that start or end at a node, in the order of the model. -/
def edgesAt (g : Graph) (m : Model) (id : String) : List String :=
  let ids := (g.leaving id ++ g.entering id).map (·.id)
  (m.edges.map (·.id)).filter ids.contains

end TopologicalOrder

end Graph

end Flowchart
