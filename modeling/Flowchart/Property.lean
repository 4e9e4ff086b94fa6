import Flowchart.Style
import Flowchart.Text.Character
import Flowchart.Text.Path

/-!
# Property lists

A style line carries a list `key:value,key:value`.  Chunks without a colon or
without a key are skipped, and blanks around keys and values do not count.  Of a
key that is written twice the last value holds.  Properties overwrite the fields
of a style; keys and values that are not understood are passed over.
-/

namespace Flowchart

/-- The properties of a style line, in the order in which they are written. -/
abbrev Properties := List (String × String)

namespace Properties

open Text

/-- One property, if the chunk has a colon and a key before it. -/
def readChunk? (chunk : List Char) : Option (String × String) :=
  match cut ':' chunk with
  | (_, none) => none
  | (key, some value) =>
      match trim key with
      | [] => none
      | key => some (String.ofList key, String.ofList (trim value))

/-- The text without the semicolons it ends with. -/
def dropSemicolons (cs : List Char) : List Char :=
  (cs.reverse.dropWhile (· == ';')).reverse

/-- The properties written in a text. -/
def read (cs : List Char) : Properties :=
  ((dropSemicolons (trim cs)).splitOn ',').filterMap readChunk?

/-- The colour written last at a key, if it can be written back. -/
def color? (ps : Properties) (key : String) : Option Color :=
  (Record.last? key ps).bind Color.ofText?

end Properties

namespace Width

open Text

/-- A number with an optional fraction and an optional unit, perhaps before a line feed. -/
def read? (cs : List Char) : Option Decimal :=
  let whole := cs.takeWhile isDigit
  let rest := cs.dropWhile isDigit
  let (fraction, rest) :=
    match rest with
    | '.' :: after =>
        let fraction := after.takeWhile isDigit
        if fraction.isEmpty then ([], rest) else (fraction, after.dropWhile isDigit)
    | _ => ([], rest)
  let rest :=
    match rest with
    | 'p' :: 'x' :: after => after
    | _ => rest
  if !whole.isEmpty && (rest == [] || rest == ['\n']) then
    some ⟨number (whole ++ fraction), -(fraction.length : Int)⟩
  else none

end Width

/-- The pattern of dashes that stands for a solid line. -/
def isSolidPattern (dashes : List Char) : Bool :=
  dashes == [] || dashes == "0".toList || dashes == "none".toList

/-- A node style overwritten by properties; only a width beyond all finite numbers is refused. -/
def NodeStyle.overwrite (s : NodeStyle) (ps : Properties) : Except Fault NodeStyle := do
  let borderWidth ←
    match (Record.last? "stroke-width" ps).bind (Width.read? ·.toList) with
    | some d => Width.check (Double.ofDecimal false d)
    | none => .ok s.borderWidth
  return {
    textColor := (ps.color? "color").getD s.textColor
    backgroundColor := (ps.color? "fill").getD s.backgroundColor
    borderColor := (ps.color? "stroke").getD s.borderColor
    borderWidth
    border :=
      match Record.last? "stroke-dasharray" ps with
      | some dashes => if isSolidPattern (Text.trim dashes.toList) then .solid else .dashed
      | none => s.border }

/-- A node style overwritten by the properties of several lines, one after the other. -/
def NodeStyle.overwriteAll (s : NodeStyle) (lines : List Properties) : Except Fault NodeStyle :=
  lines.foldlM overwrite s

/-- An edge style overwritten by properties. -/
def EdgeStyle.overwrite (s : EdgeStyle) (ps : Properties) : EdgeStyle where
  lineColor := (ps.color? "stroke").getD s.lineColor
  labelColor := (ps.color? "color").getD s.labelColor

/-- An edge style overwritten by the properties of several lines, one after the other. -/
def EdgeStyle.overwriteAll (s : EdgeStyle) (lines : List Properties) : EdgeStyle :=
  lines.foldl overwrite s

end Flowchart
