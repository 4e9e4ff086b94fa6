import Flowchart.Number.Decimal
import Flowchart.Text.Quoted

/-!
# Data from outside and records

What a caller hands over where a shape, a colour or a border style is expected
may be any value of a data format.  Messages show such a value as a literal.

A record is a list of pairs of a key and a value.  Putting a value keeps the place
of its key if the record has it, and appends it otherwise; so a key keeps its first
place and takes its last value.
-/

namespace Flowchart

/-- A value of unknown kind. -/
inductive Datum
  | null
  | bool (b : Bool)
  | int (n : Int)
  | float (x : Double)
  | text (s : String)
  | list (items : List Datum)
  | record (fields : List (String × Datum))
deriving Repr, Inhabited

namespace Datum

mutual

/-- The literal of a value. -/
def literal : Datum → String
  | null => "None"
  | bool true => "True"
  | bool false => "False"
  | int n => toString n
  | float x => x.literal
  | text s => quoted s
  | list items => "[" ++ literalItems items ++ "]"
  | record fields => "\x7b" ++ literalFields fields ++ "\x7d"

/-- The literals of some values, separated by commas. -/
def literalItems : List Datum → String
  | [] => ""
  | [item] => literal item
  | item :: items => literal item ++ ", " ++ literalItems items

/-- The literals of some fields, separated by commas. -/
def literalFields : List (String × Datum) → String
  | [] => ""
  | [(name, value)] => quoted name ++ ": " ++ literal value
  | (name, value) :: fields =>
      quoted name ++ ": " ++ literal value ++ ", " ++ literalFields fields

end

end Datum

namespace Record

variable {κ α : Type} [BEq κ]

/-- The record with `value` at `key`. -/
def put (key : κ) (value : α) : List (κ × α) → List (κ × α)
  | [] => [(key, value)]
  | (k, v) :: rest =>
      if k == key then (k, value) :: rest
      else (k, v) :: put key value rest

/-- The record of some pairs, put one after the other. -/
def ofPairs (pairs : List (κ × α)) : List (κ × α) :=
  pairs.foldl (fun record pair => put pair.1 pair.2 record) []

/-- The value put last at a key, read from the pairs themselves. -/
def last? (key : κ) (pairs : List (κ × α)) : Option α :=
  (pairs.reverse.find? (·.1 == key)).map (·.2)

end Record

end Flowchart
