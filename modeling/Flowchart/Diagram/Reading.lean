import Flowchart.Diagram
import Flowchart.Line
import Flowchart.Problem

/-!
# Reading a diagram

The lines are classified one by one.  Node lines declare nodes, a repeated
declaration in the place of the first; edge lines give the edges in order; the
ends of edges that are not declared become placeholders; then the style lines are
applied one after the other, each to the node of its id, and the link-style lines,
each to the edge at its index.  What is not understood stays in the text and is
reported.  Reading is refused only for an index or a width beyond all limits.
-/

namespace Flowchart

/-- The result of reading a text. -/
structure Reading where
  diagram : Diagram
  /-- The first header line: its keyword, its direction, and its number. -/
  header : Option (String × Option String × Nat)
  diagnostics : List Diagnostic
deriving Repr

namespace Reading

/-- The node that a node line declares. -/
def declaredNode (id body : String) : Node :=
  let decoded := Shape.decode body
  { id, label := decoded.label, shape := decoded.shape }

/-- Puts a declaration in the place of an earlier one of the same id, or at the end. -/
def declare (nodes : List Node) (n : Node) : List Node :=
  if nodes.any (·.id == n.id) then nodes.map fun m => if m.id == n.id then n else m
  else nodes ++ [n]

/-- The nodes that some classified lines declare. -/
def declaredNodes (lines : List Line) : List Node :=
  lines.foldl (fun nodes line =>
    match line with
    | .node id body => declare nodes (declaredNode id body)
    | _ => nodes) []

/-- The edges of some edge lines after the edges that are already there. -/
def edgesFrom (before : List Edge) : List EdgeLine → List Edge
  | [] => before
  | e :: rest =>
      let edge : Edge := {
        id := Edge.nextId before e.source e.target
        source := e.source
        target := e.target
        label := e.label.getD "" }
      edgesFrom (before ++ [edge]) rest

/-- The problem of a line that could not be understood, if it looks like an edge or a node. -/
def problem? (line : Line) : Option Problem :=
  match line with
  | .other text =>
      let cs := Text.trim text.toList
      if Line.holdsArrow cs then some (.notAnEdge (String.ofList cs))
      else if Line.looksLikeNode cs then some (.notANode (String.ofList cs))
      else none
  | _ => none

/-- The places of some nodes by their ids; of an id that is there twice the last one counts. -/
def nodePlaces (nodes : List Node) : List (String × Nat) :=
  nodes.zipIdx.map fun (n, place) => (n.id, place)

/-- Lets one style line change the node of its id where it stands, if there is one. -/
def applyStyle (places : List (String × Nat)) (nodes : List Node)
    (line : String × Properties) : Except Fault (List Node) := do
  let some place := Record.last? line.1 places | return nodes
  let some n := nodes[place]? | return nodes
  return nodes.set place { n with style := ← n.style.overwrite line.2 }

/-- The nodes after all style lines, which are applied one after the other. -/
def styleNodes (lines : List Line) (nodes : List Node) : Except Fault (List Node) :=
  (Line.styles lines).foldlM (applyStyle (nodePlaces nodes)) nodes

/-- Lets one link-style line change the edge at its index, if there is one. -/
def applyLinkStyle (edges : List Edge) (line : Nat × Properties) : List Edge :=
  edges.modify line.1 fun e => { e with style := e.style.overwrite line.2 }

/-- The edges after all link-style lines, which are applied one after the other. -/
def styleEdges (lines : List Line) (edges : List Edge) : List Edge :=
  (Line.linkStyles lines).foldl applyLinkStyle edges

/-- The problem of a style line for a node that there is not. -/
def nodeStyleProblem? (nodes : List Node) : Line → Option Problem
  | .style id _ => if nodes.any (·.id == id) then none else some (.styleOfNoNode id)
  | _ => none

/-- The problem of a link-style line for an edge that there is not. -/
def edgeStyleProblem? (edges : List Edge) : Line → Option Problem
  | .linkStyle index _ => if index < edges.length then none else some (.styleOfNoEdge index)
  | _ => none

/-- The problems of some lines, each with the number of its line. -/
def diagnose (problem? : Line → Option Problem) (lines : List Line) : List Diagnostic :=
  lines.zipIdx.filterMap fun (line, number) => (problem? line).map (⟨·, some number⟩)

/-- The first header of a text. -/
def header? (lines : List Line) : Option (String × Option String × Nat) :=
  lines.zipIdx.findSome? fun
    | (.header keyword direction, number) => some (keyword, direction, number)
    | _ => none

/-- The nodes of a text without their styles: the declared ones and then the placeholders. -/
def plainNodes (lines : List Line) : List Node :=
  completeNodes (declaredNodes lines) (edgesFrom [] (Line.edges lines)) []

/-- The model of some classified lines. -/
def modelOf (lines : List Line) : Except Fault Model := do
  let nodes ← styleNodes lines (plainNodes lines)
  return { nodes, edges := styleEdges lines (edgesFrom [] (Line.edges lines)) }

/-- Reads the lines of a text. -/
def ofLines (lines : List String) : Except Fault Reading := do
  checkReadable lines
  let kinds := lines.map Line.classify
  let model ← modelOf kinds
  return {
    diagram := { lines, model }
    header := header? kinds
    diagnostics :=
      diagnose problem? kinds
        ++ diagnose (nodeStyleProblem? model.nodes) kinds
        ++ diagnose (edgeStyleProblem? model.edges) kinds }

/-- Reads a text. -/
def ofText (text : String) : Except Fault Reading := ofLines (splitLines text)

end Reading

/-- The diagram of a text. -/
def Diagram.ofText (text : String) : Except Fault Diagram := do
  return (← Reading.ofText text).diagram

end Flowchart
