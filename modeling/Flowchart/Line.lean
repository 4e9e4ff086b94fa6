import Flowchart.Property
import Flowchart.Text.Word

/-!
# Lines of a diagram

Every line of a diagram text is of exactly one kind.  `Line.classify` tells which:

* a header opens the text and may give a direction;
* a node line is an id followed by a bracketed label;
* an edge line is two ids joined by an arrow, each with an optional bracketed
  label of its own, and an optional label of the edge between bars;
* a style line gives properties to a node, a link-style line to the edge that
  stands at an index among the edge lines;
* all other lines are kept as they are.

Blanks around a line and one semicolon at its end do not count.  A line is an edge
if its first reading around an arrow has well-formed brackets; no later arrow is
tried when the brackets of the first reading are not.
-/

namespace Flowchart

/-- An edge line: the ids, the label, and both ends as they are written. -/
structure EdgeLine where
  source : String
  target : String
  label : Option String
  sourceText : String
  targetText : String
deriving DecidableEq, Repr

/-- What a line of a diagram text says. -/
inductive Line
  | header (keyword : String) (direction : Option String)
  | node (id : String) (body : String)
  | edge (e : EdgeLine)
  | style (id : String) (properties : Properties)
  | linkStyle (index : Nat) (properties : Properties)
  /-- A link-style line with an index of too many digits to be read. -/
  | overlong (digits : Nat)
  | other (text : String)
deriving DecidableEq, Repr

namespace Line

open Text

/-- The most digits that an index may have. -/
def indexLimit : Nat := 4300

/-- A line without the blanks around it and without one semicolon at its end. -/
def core (line : List Char) : List Char :=
  match (trim line).reverse with
  | ';' :: rest => trimEnd rest.reverse
  | _ => trim line

/-- The arrow of an edge line. -/
def arrow : List Char := ['-', '-', '>']

/-- Whether a text holds an arrow. -/
def holdsArrow (cs : List Char) : Bool := holds arrow cs

section Headers

/-- The directions in which a flowchart may run. -/
def directions : List String := ["TB", "TD", "BT", "RL", "LR"]

/-- The keywords of the other types of diagrams, which stand alone. -/
def otherKeywords : List String :=
  [
    "sequenceDiagram", "classDiagram", "stateDiagram", "stateDiagram-v2",
    "gitGraph", "erDiagram", "journey", "gantt" ]

/-- Nothing but blanks and perhaps one semicolon. -/
def isHeaderEnd (cs : List Char) : Bool :=
  match trimStart cs with
  | [] => true
  | [c] => c == ';'
  | _ => false

/-- The direction of a flowchart header after its keyword: none, or one after a blank. -/
def direction? (cs : List Char) : Option (Option String) :=
  if isHeaderEnd cs then some none
  else
    match cs with
    | c :: _ =>
        if isBlank c then
          (directions.find? fun d =>
            ((after? d.toList (trimStart cs)).map isHeaderEnd).getD false).map some
        else none
    | [] => none

/-- A header, if the line is one. -/
def header? (cs : List Char) : Option Line :=
  match ["flowchart", "graph"].findSome? fun k =>
      ((after? k.toList cs).bind direction?).map (header k ·) with
  | some line => some line
  | none => (otherKeywords.find? (·.toList == cs)).map (header · none)

end Headers

section StyleLines

/-- The words after a keyword: blanks, a run of characters, blanks, and the rest of the line. -/
def directive? (keyword : String) (inRun : Char → Bool) (cs : List Char) :
    Option (List Char × List Char) := do
  let afterKeyword ← after? keyword.toList cs
  let body := trimStart afterKeyword
  let run := body.takeWhile inRun
  let afterRun := body.dropWhile inRun
  let rest := trimStart afterRun
  if body.length < afterKeyword.length && !run.isEmpty
      && rest.length < afterRun.length && !rest.isEmpty && !rest.contains '\n' then
    some (run, rest)
  else none

/-- The style line of a node, if the line is one. -/
def style? (cs : List Char) : Option Line :=
  (directive? "style" isWord cs).map fun (id, properties) =>
    style (String.ofList id) (Properties.read properties)

/-- The style line of an edge, if the line is one. -/
def linkStyle? (cs : List Char) : Option Line :=
  (directive? "linkStyle" isDigit cs).map fun (index, properties) =>
    if indexLimit < index.length then overlong index.length
    else linkStyle (number index) (Properties.read properties)

end StyleLines

section EdgeLines

/-- What stands after an arrow: the label, the target, and the brackets of the target. -/
structure ArrowEnd where
  label : Option (List Char)
  target : List Char
  suffix : List Char

/-- The target of an arrow: one word, then nothing or an opening bracket and the rest of the line. -/
def target? (label : Option (List Char)) (cs : List Char) : Option ArrowEnd :=
  match word (trimStart cs) with
  | ([], _) => none
  | (target, []) => some ⟨label, target, []⟩
  | (target, c :: rest) =>
      if Shape.opens c && !rest.contains '\n' then some ⟨label, target, c :: rest⟩
      else none

/-- What stands after an arrow; a bar there starts a label, which another bar ends. -/
def arrowEnd? (cs : List Char) : Option ArrowEnd :=
  match trimStart cs with
  | '|' :: rest =>
      match cut '|' rest with
      | (label, some rest) => target? (some label) rest
      | (_, none) => none
  | rest => target? none rest

/-- An arrow after blanks, and what stands after it. -/
def arrow? (cs : List Char) : Option ArrowEnd :=
  (after? arrow (trimStart cs)).bind arrowEnd?

/-- The shortest text before an arrow with a well-formed end, and that end. -/
def untilArrow? : List Char → Option (List Char × ArrowEnd)
  | [] => none
  | c :: cs =>
      match arrow? (c :: cs) with
      | some arrowEnd => some ([], arrowEnd)
      | none =>
          if c = '\n' then none
          else (untilArrow? cs).map fun (suffix, arrowEnd) => (c :: suffix, arrowEnd)

/-- Whether a suffix is missing or a known pair of brackets. -/
def isSuffix (cs : List Char) : Bool :=
  cs.isEmpty || (Shape.enclosing? cs).isSome

/-- The first reading of a line around an arrow: source, brackets of the source, and the end. -/
def edgeReading? (cs : List Char) : Option (List Char × List Char × ArrowEnd) :=
  match word cs with
  | ([], _) => none
  | (_, []) => none
  | (source, c :: rest) =>
      if Shape.opens c then
        (untilArrow? rest).map fun (suffix, arrowEnd) => (source, c :: suffix, arrowEnd)
      else (arrow? (c :: rest)).map fun arrowEnd => (source, [], arrowEnd)

/-- An edge line, if the line is one. -/
def edge? (cs : List Char) : Option Line :=
  (edgeReading? cs).bind fun (source, suffix, arrowEnd) =>
    if isSuffix suffix && isSuffix arrowEnd.suffix then
      some (edge {
        source := String.ofList source
        target := String.ofList arrowEnd.target
        label := arrowEnd.label.map String.ofList
        sourceText := String.ofList (source ++ suffix)
        targetText := String.ofList (arrowEnd.target ++ arrowEnd.suffix) })
    else none

end EdgeLines

section NodeLines

/-- A node line, if the line is one. -/
def node? (cs : List Char) : Option Line :=
  match word cs with
  | ([], _) => none
  | (id, body) =>
      if (Shape.enclosing? body).isSome && !body.contains '\n' then
        some (node (String.ofList id) (String.ofList body))
      else none

/-- The kind of a line. -/
def classify (line : String) : Line :=
  let cs := core line.toList
  ((((header? cs).orElse fun _ => style? cs).orElse fun _ => linkStyle? cs).orElse
    fun _ => edge? cs).orElse (fun _ => node? cs) |>.getD (other line)

/-- Whether a line holds the arrow of an edge. -/
def looksLikeEdge (line : String) : Bool := holdsArrow line.toList

/-- Whether a line starts like a node: with an id and an opening bracket. -/
def looksLikeNode (line : List Char) : Bool :=
  match word line with
  | ([], _) => false
  | (_, []) => false
  | (_, c :: _) => Shape.opens c

end NodeLines

end Line

namespace Line

section TextParts

/-- The edge lines among some lines, in order. -/
def edges (lines : List Line) : List EdgeLine :=
  lines.filterMap fun
    | edge e => some e
    | _ => none

/-- The style lines among some lines, in order: the id of a node, and its properties. -/
def styles (lines : List Line) : List (String × Properties) :=
  lines.filterMap fun
    | style id properties => some (id, properties)
    | _ => none

/-- The link-style lines among some lines, in order: the index of an edge, and its properties. -/
def linkStyles (lines : List Line) : List (Nat × Properties) :=
  lines.filterMap fun
    | linkStyle index properties => some (index, properties)
    | _ => none

/-- The properties that style lines give to the node of an id, line by line. -/
def nodeProperties (id : String) (lines : List Line) : List Properties :=
  lines.filterMap fun
    | style owner properties => if owner == id then some properties else none
    | _ => none

/-- The properties that link-style lines give to the edge at an index, line by line. -/
def edgeProperties (index : Nat) (lines : List Line) : List Properties :=
  lines.filterMap fun
    | linkStyle place properties => if place = index then some properties else none
    | _ => none

end TextParts

end Line

/-- The kind of a line; an index that cannot be read is a fault. -/
def Line.read (line : String) : Except Fault Line :=
  match classify line with
  | overlong digits => .error (.overlongIndex digits)
  | kind => .ok kind

/-- Whether all lines can be read; the first one that cannot gives the fault. -/
def checkReadable (lines : List String) : Except Fault Unit :=
  lines.forM fun line => (Line.read line).map fun _ => ()

end Flowchart
