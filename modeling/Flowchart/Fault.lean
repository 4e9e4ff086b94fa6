import Flowchart.Datum
import Flowchart.Shape

/-!
# Faults and places in a list

A fault is a request that cannot be carried out at all, in contrast to a problem
of the diagram text, which is reported beside a result.  `Fault.message` words
every cause.

A number counts the members of a list from zero on, and a negative one from the end.
Numbers that 64 bits with a sign do not hold are faults on their own account.
-/

namespace Flowchart

/-- Why a request cannot be carried out. -/
inductive Fault
  /-- A link-style index of more digits than can be read. -/
  | overlongIndex (digits : Nat)
  /-- A border width that is negative, infinite or undefined. -/
  | widthOutOfRange (width : Double)
  /-- A colour that could not be read back from a property list. -/
  | unwritableColor (field : String) (given : Datum)
  /-- Neither a solid nor a dashed border. -/
  | unknownBorder (given : Datum)
  /-- No shape of that name. -/
  | unknownShape (given : Datum)
  /-- No edge line stands at that position. -/
  | noEdgeAt (position : Int)
  /-- A number that counts no member of a list. -/
  | outOfRange
  /-- A number too large to count the members of any list. -/
  | oversizedNumber
  /-- An integer beyond all finite binary64 numbers. -/
  | integerBeyondDoubles
  /-- A quotient of integers beyond all finite binary64 numbers. -/
  | quotientBeyondDoubles
  /-- No edit of that name. -/
  | unknownEdit (name : String)
  /-- No template for that type of diagram. -/
  | unknownTemplate (type : String)
  /-- Brackets out of place in the host of an address. -/
  | misplacedBracket
  /-- Neither version of an internet address between the brackets of a host. -/
  | notAnAddress (host : String)
  /-- A host of a future address version, but not a well-formed one. -/
  | malformedFutureAddress
  /-- A version 4 address between the brackets of a host. -/
  | bracketedVersion4
  /-- A host with characters that look like delimiters of an address. -/
  | misleadingHost (host : String)
  /-- A subscription that is not there any more. -/
  | notSubscribed
  /-- A shape without corners only. -/
  | notAPolygon (shape : Shape)
  /-- A sheet of no columns. -/
  | noColumns
deriving Repr

namespace Fault

/-- The wording of a fault. -/
def message : Fault → String
  | overlongIndex digits =>
      "Exceeds the limit (4300 digits) for integer string conversion: value has "
        ++ toString digits
        ++ " digits; use sys.set_int_max_str_digits() to increase the limit"
  | widthOutOfRange width =>
      "border_width must be a finite number >= 0, got " ++ width.literal
  | unwritableColor field given =>
      field ++ " must not contain , : ; or whitespace, got " ++ given.literal
  | unknownBorder given => given.literal ++ " is not a valid BorderStyle"
  | unknownShape given => "Unknown shape: " ++ given.literal
  | noEdgeAt position => "No edge at link-style index " ++ toString position
  | outOfRange => "list index out of range"
  | oversizedNumber => "cannot fit 'int' into an index-sized integer"
  | integerBeyondDoubles => "int too large to convert to float"
  | quotientBeyondDoubles => "integer division result too large for a float"
  | unknownEdit name => "Unsupported operation: " ++ quoted name
  | unknownTemplate type => quoted type
  | misplacedBracket => "Invalid IPv6 URL"
  | notAnAddress host =>
      quoted host ++ " does not appear to be an IPv4 or IPv6 address"
  | malformedFutureAddress => "IPvFuture address is invalid"
  | bracketedVersion4 => "An IPv4 address cannot be in brackets"
  | misleadingHost host =>
      "netloc '" ++ host ++ "' contains invalid characters under NFKC normalization"
  | notSubscribed => "list.remove(x): x not in list"
  | notAPolygon shape => "Shape." ++ shape.constant ++ " is not drawn as a polygon"
  | noColumns => "division by zero"

end Fault

section Places

/-- Whether 64 bits with a sign hold a number. -/
def isPlaceNumber (number : Int) : Bool :=
  -(Int.pow 2 63) ≤ number && number < Int.pow 2 63

/-- The place of the member of a list that a number counts. -/
def place {α : Type} (xs : List α) (number : Int) : Except Fault (Fin xs.length) :=
  if isPlaceNumber number then
    let n := if number < 0 then number + xs.length else number
    if h : 0 ≤ n ∧ n < xs.length then .ok ⟨n.toNat, by omega⟩
    else .error .outOfRange
  else .error .oversizedNumber

/-- The member of a list that a number counts. -/
def member {α : Type} (xs : List α) (number : Int) : Except Fault α := do
  let n ← place xs number
  return xs[n]

end Places

end Flowchart
