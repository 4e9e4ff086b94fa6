import Flowchart.Style

/-!
# Diagrams

A diagram is its text, line by line, and a model of the nodes and edges that the
text declares.  The edges stand in text order, so the place of an edge in the
model is its link-style index.  The id of an edge is made of the ids of its ends
and, from the second edge between the same ends on, of the number of edges
between them that stand before it.

A node refers to its shape by name.  A value that names no shape is kept as it was
given: a node can carry it, and only writing the node refuses it.
-/

namespace Flowchart

/-- A shape, or what was given in its place. -/
inductive ShapeRef
  | known (shape : Shape)
  | unknown (given : Datum)
deriving Repr, Inhabited

namespace ShapeRef

instance : Coe Shape ShapeRef := ⟨known⟩

/-- A given value as a reference to a shape. -/
def ofDatum (given : Datum) : ShapeRef :=
  match given with
  | .text name =>
      match Shape.ofName? name with
      | some shape => known shape
      | none => unknown given
  | _ => unknown given

/-- The shape referred to, if there is one. -/
def resolve : ShapeRef → Except Fault Shape
  | known shape => .ok shape
  | unknown given => .error (.unknownShape given)

end ShapeRef

/-- A node; one that only stands at the end of an edge is not declared. -/
structure Node where
  id : String
  label : String
  shape : ShapeRef := Shape.rectangle
  style : NodeStyle := {}
  declared : Bool := true
deriving Repr

/-- An edge; its ends need not be declared. -/
structure Edge where
  id : String
  source : String
  target : String
  label : String := ""
  style : EdgeStyle := {}
deriving DecidableEq, Repr

/-- Nodes and edges, both in order. -/
structure Model where
  nodes : List Node := []
  edges : List Edge := []
deriving Repr

/-- The lines of a text and the model of it. -/
structure Diagram where
  lines : List String := []
  model : Model := {}
deriving Repr

section EdgeIds

/-- The id of an edge that has `earlier` edges between the same ends before it. -/
def Edge.idFor (source target : String) (earlier : Nat) : String :=
  let base := "edge_" ++ source ++ "_" ++ target
  if earlier = 0 then base else base ++ "_" ++ toString earlier

/-- Whether an edge runs between two given ends. -/
def Edge.joins (e : Edge) (source target : String) : Bool :=
  e.source == source && e.target == target

/-- The id of a further edge after some edges. -/
def Edge.nextId (edges : List Edge) (source target : String) : String :=
  Edge.idFor source target (edges.countP (·.joins source target))

/-- The edges with their ids counted anew, after some edges that have theirs. -/
def renumberFrom (before : List Edge) : List Edge → List Edge
  | [] => []
  | e :: edges =>
      let numbered := { e with id := Edge.nextId before e.source e.target }
      numbered :: renumberFrom (before ++ [numbered]) edges

/-- The edges with their ids counted from the first one on. -/
def renumberEdges (edges : List Edge) : List Edge := renumberFrom [] edges

end EdgeIds

namespace ShapeRef

/-- Equality of references by the names they show. -/
def agrees : ShapeRef → ShapeRef → Bool
  | known s, known t => s == t
  | unknown s, unknown t => s.literal == t.literal
  | _, _ => false

end ShapeRef

namespace Node

/-- Equality of nodes, with widths compared by value. -/
def agrees (m n : Node) : Bool :=
  m.id == n.id
    && m.label == n.label
    && m.shape.agrees n.shape
    && m.style.agrees n.style
    && m.declared == n.declared

end Node

/-- Whether two lists have the same length and related members at the same places. -/
def agreeOn {α : Type} (same : α → α → Bool) : List α → List α → Bool
  | [], [] => true
  | x :: xs, y :: ys => same x y && agreeOn same xs ys
  | _, _ => false

namespace Model

/-- The first node of an id. -/
def node? (m : Model) (id : String) : Option Node :=
  m.nodes.find? (·.id == id)

/-- The first edge of an id. -/
def edge? (m : Model) (id : String) : Option Edge :=
  m.edges.find? (·.id == id)

/-- The link-style index of the first edge of an id. -/
def edgeIndex? (m : Model) (id : String) : Option Nat :=
  m.edges.findIdx? (·.id == id)

/-- The ids of the nodes, in order. -/
def nodeIds (m : Model) : List String := m.nodes.map (·.id)

/-- The nodes that the text declares. -/
def declared (m : Model) : List Node := m.nodes.filter (·.declared)

/-- Equality of models, with widths compared by value. -/
def agrees (m n : Model) : Bool :=
  agreeOn Node.agrees m.nodes n.nodes && m.edges == n.edges

end Model

namespace Diagram

/-- The text of a diagram. -/
def text (d : Diagram) : String := joinLines d.lines

/-- Whether nothing is written on any line. -/
def isEmpty (d : Diagram) : Bool := d.lines.all isBlankLine

/-- Equality of diagrams, with widths compared by value. -/
def agrees (c d : Diagram) : Bool :=
  c.lines == d.lines && c.model.agrees d.model

end Diagram

section Placeholders

/-- The node of an id that stands at the end of an edge without being declared. -/
def placeholder (id : String) : Node :=
  { id, label := id, declared := false }

/-- The ends of some edges, in the order in which they are mentioned. -/
def endpoints (edges : List Edge) : List String :=
  edges.flatMap fun e => [e.source, e.target]

/-- Adds the node of an id unless there is one: a former placeholder or a new one. -/
def addEndpoint (previous : List Node) (nodes : List Node) (id : String) : List Node :=
  if nodes.any (·.id == id) then nodes
  else
    let kept := previous.reverse.find? fun n => !n.declared && n.id == id
    nodes ++ [kept.getD (placeholder id)]

/--
Completes the declared nodes by placeholders for the other ends of edges, in the
order of first mention; a previous placeholder keeps its values.
-/
def completeNodes (declared : List Node) (edges : List Edge) (previous : List Node) :
    List Node :=
  (endpoints edges).foldl (addEndpoint previous) declared

end Placeholders

end Flowchart
