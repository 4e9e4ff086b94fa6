import Flowchart.Fault
import Flowchart.Text.Character

/-!
# Styles of nodes and edges

Styles are written unquoted into property lists, so a colour is any text without
the characters that structure such a list, and a border width is a finite
binary64 number that is not negative.  Both conditions are part of the types; a
draft holds the values as a caller gives them, and `check` refuses the others.
-/

namespace Flowchart

/-- Whether a character may stand in a colour. -/
def isColorChar (c : Char) : Bool :=
  !(c == ',' || c == ':' || c == ';' || Text.isBlank c)

/-- A colour that is read back from a property list as it was written. -/
structure Color where
  text : String
  writable : text.toList.all isColorChar = true
deriving DecidableEq, Repr

namespace Color

/-- A text as a colour, if it can be written as one. -/
def ofText? (text : String) : Option Color :=
  if h : text.toList.all isColorChar = true then some ⟨text, h⟩ else none

/-- A given value as the colour of a field. -/
def check (field : String) (given : Datum) : Except Fault Color :=
  match given with
  | .text text =>
      match ofText? text with
      | some color => .ok color
      | none => .error (.unwritableColor field given)
  | _ => .error (.unwritableColor field given)

/-- Black, the default of texts and borders. -/
def black : Color := ⟨"#000000", by decide⟩

/-- White, the default of backgrounds. -/
def white : Color := ⟨"#ffffff", by decide⟩

/-- Grey, the default of connectors. -/
def gray : Color := ⟨"#6b7280", by decide⟩

end Color

/-- A finite border width that is not negative; zero may carry a sign. -/
structure Width where
  rank : Nat
  negative : Bool
  finite : rank < Binary64.infinity
  zero_of_negative : negative = true → rank = 0
deriving DecidableEq, Repr

namespace Width

/-- The width as a number. -/
def toDouble (w : Width) : Double := .signed w.negative w.rank

/-- A number as a width, if it is finite and not negative. -/
def ofDouble? : Double → Option Width
  | .nan => none
  | .signed negative rank =>
      if h : rank < Binary64.infinity ∧ (negative = true → rank = 0) then
        some ⟨rank, negative, h.1, h.2⟩
      else none

/-- A number as a width, or the fault that it is none. -/
def check (x : Double) : Except Fault Width :=
  match ofDouble? x with
  | some w => .ok w
  | none => .error (.widthOutOfRange x)

/-- Equality of widths by value, for which the sign of zero does not count. -/
def agrees (v w : Width) : Bool := v.rank == w.rank

/-- One pixel, the default. -/
def one : Width := ⟨Binary64.one, false, by decide, by decide⟩

end Width

/-- The line of a border. -/
inductive Border
  | solid
  | dashed
deriving DecidableEq, Repr

namespace Border

/-- The name by which callers refer to a border. -/
def name : Border → String
  | solid => "solid"
  | dashed => "dashed"

/-- A given value as a border. -/
def check : Datum → Except Fault Border
  | .text "solid" => .ok solid
  | .text "dashed" => .ok dashed
  | given => .error (.unknownBorder given)

end Border

/-- How a node is drawn. -/
structure NodeStyle where
  textColor : Color := .black
  backgroundColor : Color := .white
  borderColor : Color := .black
  borderWidth : Width := .one
  border : Border := .solid
deriving DecidableEq, Repr

/-- How an edge is drawn. -/
structure EdgeStyle where
  lineColor : Color := .gray
  labelColor : Color := .black
deriving DecidableEq, Repr

namespace NodeStyle

/-- A node style as a caller gives it. -/
structure Draft where
  textColor : Datum := .text "#000000"
  backgroundColor : Datum := .text "#ffffff"
  borderColor : Datum := .text "#000000"
  borderWidth : Double := .signed false Binary64.one
  border : Datum := .text "solid"

/-- The style of a draft; the border is looked at first, then the width, then the colours. -/
def Draft.check (d : Draft) : Except Fault NodeStyle := do
  let border ← Border.check d.border
  let borderWidth ← Width.check d.borderWidth
  let textColor ← Color.check "text_color" d.textColor
  let backgroundColor ← Color.check "background_color" d.backgroundColor
  let borderColor ← Color.check "border_color" d.borderColor
  return { textColor, backgroundColor, borderColor, borderWidth, border }

/-- Equality of styles, with widths compared by value. -/
def agrees (s t : NodeStyle) : Bool :=
  s.textColor == t.textColor
    && s.backgroundColor == t.backgroundColor
    && s.borderColor == t.borderColor
    && s.borderWidth.agrees t.borderWidth
    && s.border == t.border

/-- Whether a style is the default one, which is not written. -/
def isDefault (s : NodeStyle) : Bool := s.agrees {}

end NodeStyle

namespace EdgeStyle

/-- An edge style as a caller gives it. -/
structure Draft where
  lineColor : Datum := .text "#6b7280"
  labelColor : Datum := .text "#000000"

/-- The style of a draft; the connector is looked at first. -/
def Draft.check (d : Draft) : Except Fault EdgeStyle := do
  let lineColor ← Color.check "line_color" d.lineColor
  let labelColor ← Color.check "label_color" d.labelColor
  return { lineColor, labelColor }

/-- Whether a style is the default one, which is not written. -/
def isDefault (s : EdgeStyle) : Bool := s == {}

end EdgeStyle

end Flowchart
