import Flowchart.Text.Path
import Flowchart.Text.Character

/-!
# Node shapes

Every shape is written as a pair of brackets around the label.  Brackets overlap
(`(((` starts with `((`, which starts with `(`), so a text is decoded by the
first shape of a fixed order whose brackets enclose it; longer brackets come
before the shorter ones that they contain.
-/

namespace Flowchart

/-- The shapes of flowchart nodes, in the order in which pickers offer them. -/
inductive Shape
  | rectangle
  | rounded
  | stadium
  | subroutine
  | cylinder
  | circle
  | asymmetric
  | rhombus
  | hexagon
  | parallelogram
  | parallelogramAlt
  | trapezoid
  | trapezoidAlt
  | doubleCircle
deriving DecidableEq, Repr, Inhabited

namespace Shape

/-- All shapes, in picker order. -/
def all : List Shape :=
  [
    rectangle, rounded, stadium, subroutine, cylinder, circle, asymmetric,
    rhombus, hexagon, parallelogram, parallelogramAlt, trapezoid, trapezoidAlt,
    doubleCircle ]

/-- The shapes in decoding order. -/
def decodingOrder : List Shape :=
  [
    doubleCircle, circle, stadium, cylinder, subroutine, hexagon, trapezoid,
    trapezoidAlt, parallelogram, parallelogramAlt, asymmetric, rhombus, rounded,
    rectangle ]

/-- The name by which callers refer to a shape. -/
def name : Shape → String
  | rectangle => "rectangle"
  | rounded => "rounded"
  | stadium => "stadium"
  | subroutine => "subroutine"
  | cylinder => "cylinder"
  | circle => "circle"
  | asymmetric => "asymmetric"
  | rhombus => "rhombus"
  | hexagon => "hexagon"
  | parallelogram => "parallelogram"
  | parallelogramAlt => "parallelogram-alt"
  | trapezoid => "trapezoid"
  | trapezoidAlt => "trapezoid-alt"
  | doubleCircle => "double-circle"

/-- The title shown in pickers. -/
def title : Shape → String
  | rectangle => "Rectangle"
  | rounded => "Rounded"
  | stadium => "Stadium"
  | subroutine => "Subroutine"
  | cylinder => "Cylinder"
  | circle => "Circle"
  | asymmetric => "Asymmetric"
  | rhombus => "Rhombus"
  | hexagon => "Hexagon"
  | parallelogram => "Parallelogram"
  | parallelogramAlt => "Parallelogram Alt"
  | trapezoid => "Trapezoid"
  | trapezoidAlt => "Trapezoid Alt"
  | doubleCircle => "Double Circle"

/-- The brackets before the label. -/
def opening : Shape → String
  | rectangle => "["
  | rounded => "("
  | stadium => "(["
  | subroutine => "[["
  | cylinder => "[("
  | circle => "(("
  | asymmetric => ">"
  | rhombus => "\x7b"
  | hexagon => "\x7b\x7b"
  | parallelogram => "[/"
  | parallelogramAlt => "[\\"
  | trapezoid => "[/"
  | trapezoidAlt => "[\\"
  | doubleCircle => "((("

/-- The brackets after the label. -/
def closing : Shape → String
  | rectangle => "]"
  | rounded => ")"
  | stadium => "])"
  | subroutine => "]]"
  | cylinder => ")]"
  | circle => "))"
  | asymmetric => "]"
  | rhombus => "\x7d"
  | hexagon => "\x7d\x7d"
  | parallelogram => "/]"
  | parallelogramAlt => "\\]"
  | trapezoid => "\\]"
  | trapezoidAlt => "/]"
  | doubleCircle => ")))"

/-- A shape from its name. -/
def ofName? (name : String) : Option Shape :=
  all.find? (·.name == name)

/-- The name in capitals, with an underscore for the hyphen. -/
def constant (s : Shape) : String :=
  String.ofList (s.name.toList.map fun c => if c = '-' then '_' else c.toUpper)

/-- The characters with which the brackets of some shape start. -/
def opens (c : Char) : Bool :=
  c = '(' || c = '>' || c = '[' || c = '\x7b'

/-- The characters with which brackets start, in increasing order. -/
def openers : List Char := ['(', '>', '[', '\x7b']

/-- Exactly the listed characters open a shape. -/
theorem opens_iff_mem_openers
    (c : Char) :
    opens c = true ↔ c ∈ openers := by
  simp [opens, openers, or_assoc]

/-- The text of a node line after the id: the label between the brackets. -/
def encode (s : Shape) (label : String) : String :=
  s.opening ++ label ++ s.closing

/-- How a picker shows the brackets. -/
def sample (s : Shape) : String :=
  "node" ++ s.encode "text"

/-- Whether the brackets of a shape enclose a text without overlapping each other. -/
def encloses (s : Shape) (cs : List Char) : Bool :=
  s.opening.length + s.closing.length ≤ cs.length
    && s.opening.toList.isPrefixOf cs
    && s.closing.toList.isSuffixOf cs

/-- The text between the brackets of a shape. -/
def unwrap (s : Shape) (cs : List Char) : List Char :=
  (cs.drop s.opening.length).take
    (cs.length - s.opening.length - s.closing.length)

/-- The first shape in decoding order whose brackets enclose a text. -/
def enclosing? (cs : List Char) : Option Shape :=
  decodingOrder.find? (·.encloses cs)

/-- The shapes in picker order whose title holds the query, ignoring case. -/
def search (query : String) : List Shape :=
  all.filter fun s =>
    Text.holds (query.toList.map Text.lower) (s.title.toList.map Text.lower)

end Shape

/-- What a bracketed text says: a shape and a label, and whether its brackets are known. -/
structure Decoded where
  shape : Shape
  label : String
  recognized : Bool
deriving DecidableEq, Repr

/-- Decoding never fails: a text without known brackets is the label of a rectangle. -/
def Shape.decode (text : String) : Decoded :=
  match Shape.enclosing? text.toList with
  | some s => ⟨s, String.ofList (s.unwrap text.toList), true⟩
  | none => ⟨.rectangle, text, false⟩

end Flowchart
