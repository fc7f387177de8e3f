import MovingTarget.Decimal.Double
/-!
# The numbers that scores and intervals are made of

Scores, loads, intervals and times are scalars. Everything that computes with them is written over
`Scalar`, so a rule holds for doubles and for any other reading of its arithmetic, exact numbers
among them. A scalar that does not compare with itself is no number: `least` and `greatest` pass
over it, and `unit` takes it for zero.
-/
namespace MovingTarget

class Scalar (α : Type) extends Add α, Sub α, Mul α, Div α, Neg α, LT α, LE α, OfScientific α where
  [decidableLT : DecidableLT α]
  [decidableLE : DecidableLE α]
  /-- The scalar nearest to a count. -/
  ofCount : Nat → α
  /-- The whole part of a number that is not negative. -/
  whole : α → Nat
  /-- The text with a set number of decimal places. -/
  fixed : (places : Nat) → α → String
  /-- The shortest text without an exponent. -/
  plain : α → String

attribute [reducible, instance] Scalar.decidableLT Scalar.decidableLE

namespace Scalar
variable {α : Type} [Scalar α]

def isNumber (x : α) : Bool := decide (x ≤ x)

/-- The smaller of two scalars, or the one that is a number; the second if they compare equal. -/
def least (x y : α) : α := if x < y then x else if isNumber y then y else x

/-- The greater of two scalars, or the one that is a number; the second if they compare equal. -/
def greatest (x y : α) : α := if y < x then x else if isNumber y then y else x

def distance (x y : α) : α := if x - y < 0.0 then -(x - y) else x - y

/-- The nearest point of the unit interval; what is no number counts as zero. -/
def unit (x : α) : α :=
  if isNumber x then if x < 0.0 then 0.0 else if 1.0 < x then 1.0 else x else 0.0

/-- Add up from the left. -/
def sum (start : α) (xs : List α) : α := xs.foldl (· + ·) start

end Scalar

/-! ## Doubles -/

namespace Decimal

/-- A double outside the reals is written by name, any other by its numeral. -/
def Double.text (numeral : Bool → Magnitude → Numeral) : Double → String
  | .nan => "NaN"
  | .infinite negative => if negative then "-inf" else "inf"
  | .finite negative significand exponent narrow =>
    (numeral negative (.ofBinary significand exponent narrow)).text

/-- Plain text never has an exponent, nor a point in a whole number. -/
def plainLayout : Layout where
  tie := .up
  positional := fun _ => true
  pointed := false

end Decimal

open Decimal in
instance : Scalar Float where
  lt := (· < ·)
  le := (· ≤ ·)
  decidableLT := inferInstance
  decidableLE := inferInstance
  ofCount := Float.ofNat
  whole x := x.toUInt64.toNat
  fixed places x := (Double.ofFloat x).text fun negative v =>
    Decimal.fixed places negative v.num v.den
  plain x := (Double.ofFloat x).text fun negative v =>
    plainLayout.numeral negative (v.shortest plainLayout.tie)

end MovingTarget
