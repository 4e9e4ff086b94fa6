import Flowchart.Diagram
import Flowchart.Text.Path

/-!
# Writing lines

Each kind of line has one canonical form.  A whole model is written as a header,
the declared nodes, the edges, and then the styles that are not default, so that
reading the text gives the model back.
-/

namespace Flowchart

/-- The indentation of written lines. -/
def defaultIndent : String := "    "

/-- The header of written diagrams. -/
def defaultHeader : String := "flowchart TD"

/--
A number of pixels: a whole number in full, any other with the fewest digits that
are read back, and never with an exponent.
-/
def Double.pixels : Double → String
  | nan => "NaNpx"
  | signed negative rank =>
      if Binary64.infinity ≤ rank then
        (if negative then "-" else "") ++ "Infinitypx"
      else
        let whole := Binary64.units rank / Nat.pow 2 1074
        let sign := if negative && rank != 0 then "-" else ""
        if Binary64.units rank % Nat.pow 2 1074 = 0 then
          sign ++ toString whole ++ "px"
        else
          let (digits, fraction) := (Decimal.shortest rank).parts
          sign ++ String.ofList (digits ++ '.' :: fraction) ++ "px"

namespace Node

/-- The node line of an id, a shape and a label. -/
def lineOf (indent id : String) (shape : Shape) (label : String) : String :=
  indent ++ id ++ shape.encode label

/-- The node line of a node; its shape has to be a known one. -/
def write (n : Node) (indent : String) : Except Fault String := do
  return lineOf indent n.id (← n.shape.resolve) n.label

end Node

/-- The edge line of two ends and a label; an empty label is not written. -/
def Edge.lineOf (indent source target label : String) : String :=
  let bars := if label.isEmpty then "" else "|" ++ label ++ "|"
  indent ++ source ++ " -->" ++ bars ++ " " ++ target

/-- The edge line of an edge. -/
def Edge.write (e : Edge) (indent : String) : String :=
  lineOf indent e.source e.target e.label

/-- The style line of a node. -/
def NodeStyle.write (s : NodeStyle) (id indent : String) : String :=
  indent ++ "style " ++ id
    ++ " stroke-width:" ++ s.borderWidth.toDouble.pixels
    ++ ",stroke:" ++ s.borderColor.text
    ++ ",color:" ++ s.textColor.text
    ++ ",fill:" ++ s.backgroundColor.text
    ++ (match s.border with
        | .dashed => ",stroke-dasharray:5 5"
        | .solid => "")

/-- The link-style line of an edge at an index. -/
def EdgeStyle.write (s : EdgeStyle) (index : Int) (indent : String) : String :=
  indent ++ "linkStyle " ++ toString index
    ++ " stroke:" ++ s.lineColor.text
    ++ ",color:" ++ s.labelColor.text

/-- The text of a model under a header. -/
def Model.write (m : Model) (header : String) : Except Fault String := do
  let nodes ← m.declared.mapM (·.write defaultIndent)
  let edges := m.edges.map (·.write defaultIndent)
  let nodeStyles := m.nodes.filterMap fun n =>
    if n.style.isDefault then none else some (n.style.write n.id defaultIndent)
  let edgeStyles := m.edges.zipIdx.filterMap fun (e, index) =>
    if e.style.isDefault then none else some (e.style.write index defaultIndent)
  return joinLines (header :: nodes ++ edges ++ nodeStyles ++ edgeStyles)

end Flowchart
