/-!
# Octets and percent encoding

Characters as octets of UTF-8, and octets as characters.  Octets that are no UTF-8
give one replacement character for each longest sequence that starts a character
and is then broken off, and one for every octet that starts none.

Octets of a text that may not stand in an address are written as a percent sign
and two hexadecimal digits.  Decoding takes the octets of each run of ASCII
characters together; characters beyond ASCII stand for themselves, and so does a
percent sign that is not followed by two hexadecimal digits.
-/

namespace Flowchart

namespace Utf8

/-- The octets of a character. -/
def encode (c : Char) : List Nat :=
  let n := c.toNat
  if n < 0x80 then [n]
  else if n < 0x800 then [0xC0 + n / 0x40, 0x80 + n % 0x40]
  else if n < 0x10000 then
    [0xE0 + n / 0x1000, 0x80 + n / 0x40 % 0x40, 0x80 + n % 0x40]
  else
    [
      0xF0 + n / 0x40000, 0x80 + n / 0x1000 % 0x40,
      0x80 + n / 0x40 % 0x40, 0x80 + n % 0x40 ]

/-- A character that is not complete: how many octets it still needs, the range of the next one. -/
structure Partial where
  owed : Nat
  low : Nat
  high : Nat
  value : Nat
deriving DecidableEq, Repr

/-- What an octet between characters starts: nothing known, a whole character, or a part of one. -/
inductive Lead
  | broken
  | whole (c : Char)
  | part (p : Partial)

/-- What an octet starts. -/
def lead (b : Nat) : Lead :=
  if b < 0x80 then .whole (Char.ofNat b)
  else if b < 0xC2 then .broken
  else if b < 0xE0 then .part ⟨1, 0x80, 0xBF, b - 0xC0⟩
  else if b < 0xF0 then
    let low := if b = 0xE0 then 0xA0 else 0x80
    let high := if b = 0xED then 0x9F else 0xBF
    .part ⟨2, low, high, b - 0xE0⟩
  else if b < 0xF5 then
    let low := if b = 0xF0 then 0x90 else 0x80
    let high := if b = 0xF4 then 0x8F else 0xBF
    .part ⟨3, low, high, b - 0xF0⟩
  else .broken

/-- The character in the place of octets that are no UTF-8. -/
def replacement : Char := '\ufffd'

/-- The characters of some octets after the start of a character, if there is one. -/
def decodeFrom : Option Partial → List Nat → List Char
  | none, [] => []
  | some _, [] => [replacement]
  | none, b :: bs => fresh b bs
  | some p, b :: bs =>
      if p.low ≤ b && b ≤ p.high then
        let value := p.value * 0x40 + b % 0x40
        if p.owed ≤ 1 then Char.ofNat value :: decodeFrom none bs
        else decodeFrom (some ⟨p.owed - 1, 0x80, 0xBF, value⟩) bs
      else replacement :: fresh b bs
where
  /-- The characters of an octet between characters and those after it. -/
  fresh (b : Nat) (bs : List Nat) : List Char :=
    match lead b with
    | .broken => replacement :: decodeFrom none bs
    | .whole c => c :: decodeFrom none bs
    | .part p => decodeFrom (some p) bs

/-- The characters of some octets. -/
def decode (bs : List Nat) : List Char := decodeFrom none bs

end Utf8

namespace Percent

/-- Whether a character stands for itself in encoded text. -/
def isUnreserved (c : Char) : Bool :=
  c.isAlphanum || c == '_' || c == '.' || c == '-' || c == '~'

/-- The digit of a value below sixteen. -/
def hexDigit (n : Nat) : Char :=
  if n < 10 then Char.ofNat (0x30 + n) else Char.ofNat (0x37 + n)

/-- The value of a hexadecimal digit, small or capital. -/
def hexValue? (c : Char) : Option Nat :=
  let n := c.toNat
  if 0x30 ≤ n && n ≤ 0x39 then some (n - 0x30)
  else if 0x41 ≤ n && n ≤ 0x46 then some (n - 0x37)
  else if 0x61 ≤ n && n ≤ 0x66 then some (n - 0x57)
  else none

/-- An octet as a percent sign and two digits. -/
def encodeOctet (b : Nat) : List Char :=
  ['%', hexDigit (b / 16), hexDigit (b % 16)]

/-- A text with all octets but the unreserved ones encoded. -/
def encode (cs : List Char) : List Char :=
  cs.flatMap fun c => if isUnreserved c then [c] else (Utf8.encode c).flatMap encodeOctet

/-- A piece of encoded text: an octet, or a character beyond ASCII. -/
inductive Piece
  | octet (b : Nat)
  | char (c : Char)
deriving DecidableEq, Repr

/-- The octet that two hexadecimal digits at the start of a text write. -/
def octet? : List Char → Option Nat
  | a :: b :: _ => do return 16 * (← hexValue? a) + (← hexValue? b)
  | _ => none

/-- The pieces of an encoded text after the characters that are skipped. -/
def piecesFrom : (skip : Nat) → List Char → List Piece
  | _, [] => []
  | skip + 1, _ :: cs => piecesFrom skip cs
  | 0, c :: cs =>
      if c = '%' then
        match octet? cs with
        | some b => .octet b :: piecesFrom 2 cs
        | none => .octet c.toNat :: piecesFrom 0 cs
      else if c.toNat < 0x80 then .octet c.toNat :: piecesFrom 0 cs
      else .char c :: piecesFrom 0 cs

/-- The pieces of an encoded text. -/
def pieces (cs : List Char) : List Piece := piecesFrom 0 cs

/-- The text of some pieces after the octets of a run, which are collected in reverse. -/
def join (run : List Nat) : List Piece → List Char
  | [] => Utf8.decode run.reverse
  | .octet b :: rest => join (b :: run) rest
  | .char c :: rest => Utf8.decode run.reverse ++ c :: join [] rest

/-- An encoded text in plain. -/
def decode (cs : List Char) : List Char := join [] (pieces cs)

end Percent

end Flowchart
