/-!
# Characters

Properties of characters are lists of closed ranges of code points in increasing
order.  Blanks are white space in the sense of the Unicode bidirectional classes B,
S and WS and the category Zs: tabs, line breaks, the four information separators,
and every kind of space except the zero-width ones.  The decimal digits of a script
stand next to each other from zero to nine, so the code points of the zeros give
every value.

Texts are compared without case only with names made of ASCII characters.  Of the
characters outside ASCII only the Kelvin sign and the capital I with a dot above
turn into texts with ASCII letters when they are made small (`k`, and `i` with a
combining dot).  No name compared here holds a `k` or a combining dot, so it is
enough to make ASCII letters small.
-/

namespace Flowchart
namespace Text

/-- Whether some range of an increasing list holds `n`. -/
def inRanges (n : Nat) : List (Nat × Nat) → Bool
  | [] => false
  | (low, high) :: rest =>
      if n < low then false
      else if n ≤ high then true
      else inRanges n rest

section Blanks

/-- The blank characters, as closed ranges in increasing order. -/
def blankRanges : List (Nat × Nat) :=
  [
    (0x09, 0x0D), (0x1C, 0x20), (0x85, 0x85), (0xA0, 0xA0),
    (0x1680, 0x1680), (0x2000, 0x200A), (0x2028, 0x2029),
    (0x202F, 0x202F), (0x205F, 0x205F), (0x3000, 0x3000) ]

/-- Whether a character is white space. -/
def isBlank (c : Char) : Bool :=
  inRanges c.toNat blankRanges

/-- The text without the blanks it starts with. -/
def trimStart (cs : List Char) : List Char :=
  cs.dropWhile isBlank

/-- The text without the blanks it ends with. -/
def trimEnd (cs : List Char) : List Char :=
  (cs.reverse.dropWhile isBlank).reverse

/-- The text without the blanks at both ends. -/
def trim (cs : List Char) : List Char :=
  trimEnd (trimStart cs)

end Blanks

section SmallLetters

/-- A small letter for each capital letter of ASCII. -/
def lower (c : Char) : Char := c.toLower

/-- Whether `part` occurs in `cs`. -/
def holds (part : List Char) : List Char → Bool
  | [] => part.isEmpty
  | c :: cs => part.isPrefixOf (c :: cs) || holds part cs

end SmallLetters

section Digits

/-- The code points of the digit zero beyond ASCII, in increasing order. -/
def zeros : List Nat :=
  [
    0x660, 0x6F0, 0x7C0, 0x966, 0x9E6, 0xA66, 0xAE6, 0xB66, 0xBE6, 0xC66,
    0xCE6, 0xD66, 0xDE6, 0xE50, 0xED0, 0xF20, 0x1040, 0x1090, 0x17E0, 0x1810,
    0x1946, 0x19D0, 0x1A80, 0x1A90, 0x1B50, 0x1BB0, 0x1C40, 0x1C50, 0xA620,
    0xA8D0, 0xA900, 0xA9D0, 0xA9F0, 0xAA50, 0xABF0, 0xFF10, 0x104A0, 0x10D30,
    0x11066, 0x110F0, 0x11136, 0x111D0, 0x112F0, 0x11450, 0x114D0, 0x11650,
    0x116C0, 0x11730, 0x118E0, 0x11950, 0x11C50, 0x11D50, 0x11DA0, 0x16A60,
    0x16AC0, 0x16B50, 0x1D7CE, 0x1D7D8, 0x1D7E2, 0x1D7EC, 0x1D7F6, 0x1E140,
    0x1E2F0, 0x1E950, 0x1FBF0 ]

/-- The value of a decimal digit of any script. -/
def digit? (c : Char) : Option Nat :=
  if c.toNat < 0x80 then
    if c.isDigit then some (c.toNat - 0x30) else none
  else
    (zeros.find? fun first => first ≤ c.toNat && c.toNat < first + 10).map
      (c.toNat - ·)

/-- Whether a character is a decimal digit of any script. -/
def isDigit (c : Char) : Bool :=
  (digit? c).isSome

/-- The number a run of digits writes; other characters count as zero. -/
def number (digits : List Char) : Nat :=
  digits.foldl (fun n c => 10 * n + (digit? c).getD 0) 0

end Digits

end Text

/-- A line on which nothing is written. -/
def isBlankLine (line : String) : Bool :=
  line.toList.all Text.isBlank

end Flowchart
