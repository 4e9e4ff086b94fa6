import Flowchart.Shape
import Flowchart.Text.Quoted

/-!
# Problems

A problem is something in a text that could not be understood, or an edit that
could not be carried out.  Problems are reported beside a result and never stop
an edit half-way.
-/

namespace Flowchart

/-- The categories of problems. -/
inductive Problem.Kind
  | unrecognizedShape
  | lineNotFound
  | malformedEdge
  | unknownElement
deriving DecidableEq, Repr

/-- The name of a category. -/
def Problem.Kind.name : Problem.Kind → String
  | .unrecognizedShape => "unrecognized_shape"
  | .lineNotFound => "line_not_found"
  | .malformedEdge => "malformed_edge"
  | .unknownElement => "unknown_element"

/-- What is wrong with a line or an edit. -/
inductive Problem
  /-- A line with an arrow that is no edge line. -/
  | notAnEdge (text : String)
  /-- A line with an id and an opening bracket that is no node line. -/
  | notANode (text : String)
  /-- A style line for an id that no node has. -/
  | styleOfNoNode (id : String)
  /-- A link-style line for an index that no edge has. -/
  | styleOfNoEdge (index : Nat)
  /-- An end of a new edge that is no identifier, or is missing. -/
  | notAnId (id : Option String)
  /-- A label that cannot be written between the brackets of a shape. -/
  | unwritableNodeLabel (label : String) (shape : Shape)
  /-- A label that cannot be written on an edge line. -/
  | unwritableEdgeLabel (label : String)
  /-- No node has the id. -/
  | noNodeLine (id : String)
  /-- No line belongs to the node. -/
  | noLinesOfNode (id : String)
  /-- No edge has the id. -/
  | noEdge (id : String)
  /-- No line belongs to the edge. -/
  | noEdgeLine (id : String)
  /-- No edge line joins the two nodes. -/
  | noEdgeBetween (source target : String)
deriving DecidableEq, Repr

namespace Problem

/-- The category of a problem. -/
def kind : Problem → Kind
  | notAnEdge _ => .malformedEdge
  | notANode _ => .unrecognizedShape
  | styleOfNoNode _ => .unknownElement
  | styleOfNoEdge _ => .unknownElement
  | notAnId _ => .malformedEdge
  | unwritableNodeLabel _ _ => .unrecognizedShape
  | unwritableEdgeLabel _ => .malformedEdge
  | noNodeLine _ => .lineNotFound
  | noLinesOfNode _ => .lineNotFound
  | noEdge _ => .lineNotFound
  | noEdgeLine _ => .lineNotFound
  | noEdgeBetween _ _ => .lineNotFound

/-- The wording of a problem. -/
def message : Problem → String
  | notAnEdge text => "Not a supported edge declaration: " ++ text
  | notANode text => "Unrecognized node shape: " ++ text
  | styleOfNoNode id => "Style for unknown node '" ++ id ++ "'"
  | styleOfNoEdge index => "linkStyle " ++ toString index ++ " has no matching edge"
  | notAnId id => "'" ++ id.getD "None" ++ "' is not a valid node id"
  | unwritableNodeLabel label shape =>
      "Label " ++ quoted label ++ " cannot be written as a " ++ shape.name ++ " node"
  | unwritableEdgeLabel label =>
      "Label " ++ quoted label ++ " cannot be written on an edge line"
  | noNodeLine id => "No node line for '" ++ id ++ "'"
  | noLinesOfNode id => "No lines for node '" ++ id ++ "'"
  | noEdge id => "No edge with id '" ++ id ++ "'"
  | noEdgeLine id => "No edge line for '" ++ id ++ "'"
  | noEdgeBetween source target => "No edge line for " ++ source ++ " --> " ++ target

end Problem

/-- A problem and the number of the line that has it, if there is such a line. -/
structure Diagnostic where
  problem : Problem
  line : Option Nat := none
deriving DecidableEq, Repr

/-- The whole wording: category, line, and message. -/
def Diagnostic.render (d : Diagnostic) : String :=
  let place :=
    match d.line with
    | some n => " (line " ++ toString n ++ ")"
    | none => ""
  d.problem.kind.name ++ place ++ ": " ++ d.problem.message

end Flowchart
