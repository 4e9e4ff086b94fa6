/-!
# Binary64 magnitudes

The nonnegative binary64 values, with infinity, are numbered in increasing order:
the rank of a value is its bit pattern read as a natural number.  Every finite
value is a whole number of units of `2 ^ -1074`, so a value and its neighbours
compare exactly as natural numbers.  Rounding takes the nearest value, and the
one with the even rank of two that are equally near.
-/

namespace Flowchart
namespace Binary64

/-- The rank of infinity, above which there is no value. -/
def infinity : Nat := 0x7FF * Nat.pow 2 52

/-- The rank of one. -/
def one : Nat := 0x3FF * Nat.pow 2 52

/-- The number of units of `2 ^ -1074` in a value. -/
def units (rank : Nat) : Nat :=
  if rank < Nat.pow 2 53 then rank
  else (Nat.pow 2 52 + rank % Nat.pow 2 52) * Nat.pow 2 (rank / Nat.pow 2 52 - 1)

/-- The quotient rounded to the nearest whole number, a half to the even one. -/
def roundDiv (a b : Nat) : Nat :=
  let whole := a / b
  let twice := 2 * (a % b)
  if twice < b then whole
  else if b < twice then whole + 1
  else whole + whole % 2

/--
The rank of the value nearest to `a / b` units.

Below `2 ^ 53` units neighbours are one unit apart and ranks are units; above,
neighbours are `2 ^ shift` units apart, where the whole part has `53 + shift` bits.
-/
def nearest (a b : Nat) : Nat :=
  let whole := a / b
  if whole < Nat.pow 2 53 then roundDiv a b
  else
    let shift := whole.log2 - 52
    min infinity (shift * Nat.pow 2 52 + roundDiv a (b * Nat.pow 2 shift))

end Binary64

/-- A binary64 number: a sign and the rank of its magnitude, or not a number. -/
inductive Double
  | nan
  | signed (negative : Bool) (rank : Nat)
deriving DecidableEq, Repr, Inhabited

namespace Double

open Binary64

/-- Whether a number is neither infinite nor undefined. -/
def isFinite : Double → Bool
  | nan => false
  | signed _ rank => rank < infinity

/-- The value in units of `2 ^ -1074`; infinity lies beyond all finite values. -/
def toUnits : Double → Int
  | nan => 0
  | signed false rank => units rank
  | signed true rank => -units rank

/-- The number nearest to a ratio; an exact zero is positive. -/
def ofRatio (a : Int) (b : Nat) : Double :=
  signed (a < 0) (nearest (a.natAbs * Nat.pow 2 1074) b)

/-- The number nearest to an integer. -/
def ofInt (n : Int) : Double := ofRatio n 1

/-- The number nearest to the quotient of two integers, of which the second is not zero. -/
def quotient (a b : Int) : Double := ofRatio (a * b.sign) b.natAbs

/-- The least integer that is not below a finite number. -/
def ceil (x : Double) : Int := -((-x.toUnits).fdiv (Int.pow 2 1074))

/-- Comparison by value: both zeros are equal, and nothing compares with `nan`. -/
def le : Double → Double → Bool
  | nan, _ => false
  | _, nan => false
  | x, y => x.toUnits ≤ y.toUnits

/-- The sum, rounded once; opposite infinities have none. -/
def add : Double → Double → Double
  | signed m a, signed n b =>
      if infinity ≤ a then
        if infinity ≤ b && m != n then nan else signed m a
      else if infinity ≤ b then signed n b
      else
        let sum := (signed m a).toUnits + (signed n b).toUnits
        if sum = 0 then signed (m && n) 0
        else signed (sum < 0) (nearest sum.natAbs 1)
  | _, _ => nan

/-- The number of the same magnitude and the opposite sign. -/
def neg : Double → Double
  | nan => nan
  | signed m a => signed (!m) a

/-- The difference, rounded once. -/
def sub (x y : Double) : Double := x.add y.neg

/-- Half of a number. -/
def half : Double → Double
  | nan => nan
  | signed m a => if infinity ≤ a then signed m a else signed m (nearest (units a) 2)

end Double

end Flowchart
