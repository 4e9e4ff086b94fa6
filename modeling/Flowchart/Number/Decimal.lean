import Flowchart.Number.Binary64

/-!
# Decimal numbers

A decimal is a whole number of digits and a power of ten.  It is read as the
nearest binary64 value; a binary64 value is written with the fewest digits that
are read back as it, and the nearest of those.
-/

namespace Flowchart

open Binary64

/-- The number `digits * 10 ^ exponent`. -/
structure Decimal where
  digits : Nat
  exponent : Int
deriving DecidableEq, Repr

namespace Decimal

/-- The rank of the nearest binary64 value. -/
def rank (d : Decimal) : Nat :=
  match d.exponent with
  | .ofNat e => nearest (d.digits * Nat.pow 10 e * Nat.pow 2 1074) 1
  | .negSucc e => nearest (d.digits * Nat.pow 2 1074) (Nat.pow 10 (e + 1))

/-- A unit is `5 ^ 1074` in the last of 1074 places, so a value has an exact expansion. -/
def exact (rank : Nat) : Decimal :=
  ⟨units rank * Nat.pow 5 1074, -1074⟩

/--
The decimal of an expansion cut by its last `dropped` digits that is read as
`target`, the nearer of the two neighbours first and the even one at a tie.
-/
def neighbour? (target : Nat) (d : Decimal) (dropped : Nat) : Option Decimal :=
  let scale := Nat.pow 10 dropped
  let below : Decimal := ⟨d.digits / scale, d.exponent + dropped⟩
  let above : Decimal := ⟨below.digits + 1, below.exponent⟩
  let twice := 2 * (d.digits % scale)
  let belowFirst := twice < scale || (twice == scale && below.digits % 2 == 0)
  (if belowFirst then [below, above] else [above, below]).find? (·.rank == target)

/-- The number of digits a natural number is written with. -/
def digitCount (n : Nat) : Nat := (Nat.toDigits 10 n).length

/-- The shortest decimal that is read as the value of a rank; seventeen digits suffice. -/
def shortest (rank : Nat) : Decimal :=
  let expansion := exact rank
  let size := digitCount expansion.digits
  ((List.range' 1 17).findSome? fun kept =>
    neighbour? rank expansion (size - kept)).getD expansion

/-- The digits without trailing zeros, and how many of them stand before the point. -/
def significant (d : Decimal) : List Char × Int :=
  let all := Nat.toDigits 10 d.digits
  ((all.reverse.dropWhile (· == '0')).reverse, all.length + d.exponent)

/-- Whole part and fraction of a run of digits with the point after the first `point` of them. -/
def positional (digits : List Char) (point : Int) : List Char × List Char :=
  if point ≤ 0 then
    (['0'], List.replicate (-point).toNat '0' ++ digits)
  else
    let n := point.toNat
    (digits.take n ++ List.replicate (n - digits.length) '0', digits.drop n)

/-- Whole part and fraction of a decimal. -/
def parts (d : Decimal) : List Char × List Char :=
  let (digits, point) := d.significant
  positional digits point

/-- Scientific notation: one digit, a fraction if there is one, a signed exponent of two digits. -/
def scientific (digits : List Char) (exponent : Int) : List Char :=
  let mantissa :=
    match digits with
    | first :: second :: rest => first :: '.' :: second :: rest
    | few => few
  let size := Nat.toDigits 10 exponent.natAbs
  mantissa ++ 'e' :: (if exponent < 0 then '-' else '+') ::
    (List.replicate (2 - size.length) '0' ++ size)

end Decimal

namespace Double

/-- A magnitude below infinity in full: positional from `1e-4` up to `1e16`, else scientific. -/
def magnitudeText (rank : Nat) : List Char :=
  if rank = 0 then ['0', '.', '0']
  else
    let (digits, point) := (Decimal.shortest rank).significant
    if -4 < point && point ≤ 16 then
      let (whole, fraction) := Decimal.positional digits point
      whole ++ '.' :: (if fraction.isEmpty then ['0'] else fraction)
    else Decimal.scientific digits (point - 1)

/-- The literal of a number, with a point or an exponent, or its name. -/
def literal : Double → String
  | nan => "nan"
  | signed negative rank =>
      let body := if rank < infinity then String.ofList (magnitudeText rank) else "inf"
      if negative then "-" ++ body else body

/-- The number written by a sign and a decimal. -/
def ofDecimal (negative : Bool) (d : Decimal) : Double :=
  .signed negative d.rank

end Double

end Flowchart
