import MovingTarget.Decimal.Numeral
/-!
# Doubles and their digits

The bits of a finite double name a natural number times a power of two. `Magnitude` keeps that
number as a quotient of naturals together with the interval of numbers that round to the double, so
that decimal text can be chosen by exact comparisons: `shortest` finds the fewest digits that read
back, and a `Layout` makes a numeral of them.
-/
namespace MovingTarget.Decimal

/-- What the bits of a double stand for. -/
inductive Double where
  | nan
  | infinite (negative : Bool)
  /-- `significand * 2 ^ exponent`, with its sign; `narrow` below a power of two, where the next
  double down is half as far away as the next one up. -/
  | finite (negative : Bool) (significand : Nat) (exponent : Int) (narrow : Bool)
  deriving DecidableEq

def Double.ofBits (bits : Nat) : Double :=
  let negative := (bits >>> 63) % 2 == 1
  let field := (bits >>> 52) % 2048
  let fraction := bits % (1 <<< 52)
  if field = 2047 then if fraction = 0 then .infinite negative else .nan
  else if field = 0 then .finite negative fraction (-1074) false
  else .finite negative ((1 <<< 52) + fraction) ((field : Int) - 1075) (fraction == 0 && field != 1)

def Double.ofFloat (x : Float) : Double := .ofBits x.toBits.toNat

/-- A non-negative number `num / den` and the bounds of the numbers that stand for it. -/
structure Magnitude where
  num : Nat
  den : Nat
  low : Nat
  high : Nat
  /-- Whether the bounds themselves still stand for the number. -/
  closed : Bool

/-- The exact value of a finite double and its rounding interval, over one denominator: a quarter
of the last bit is the unit. -/
def Magnitude.ofBinary (significand : Nat) (exponent : Int) (narrow : Bool) : Magnitude :=
  let up := 1 <<< (exponent - 2).toNat
  { num := 4 * significand * up
    den := 1 <<< (2 - exponent).toNat
    low := (4 * significand - if narrow then 1 else 2) * up
    high := (4 * significand + 2) * up
    closed := significand % 2 == 0 }

/-! ## The fewest digits that read back

For one digit, two digits and so on, the two neighbours of the value on the grid of that many
digits are tried; the first grid with a point in the rounding interval wins, and of two such points
the nearer. Seventeen digits always suffice for a double. -/

/-- Where an exact tie between two equally near digits goes. -/
inductive Tie where
  | toEven
  | up

/-- `digits * 10 ^ exponent`. -/
structure Scaled where
  digits : Nat
  exponent : Int
  deriving DecidableEq

/-- How many times `num / den < 1` can be multiplied by ten and stay below one. -/
def leadingZeros (num den : Nat) : (fuel : Nat) → Nat
  | 0 => 0
  | fuel + 1 => if den ≤ num * 10 then 0 else leadingZeros (num * 10) den fuel + 1

/-- The power of ten of the first digit of `num / den`. A positive double is at least `5e-324`. -/
def leadingExponent (num den : Nat) : Int :=
  if den ≤ num then (digits (num / den)).length - 1 else -(leadingZeros num den 324) - 1

namespace Magnitude

/-- The same number in units of `10 ^ exponent`. -/
def inUnits (v : Magnitude) (exponent : Int) : Magnitude :=
  let up := tenPow (-exponent).toNat
  { v with
    num := v.num * up
    den := v.den * tenPow exponent.toNat
    low := v.low * up
    high := v.high * up }

/-- Whether the whole number `d` stands for this number. -/
def admits (v : Magnitude) (d : Nat) : Bool :=
  if v.closed then v.low ≤ d * v.den && d * v.den ≤ v.high
  else v.low < d * v.den && d * v.den < v.high

/-- The nearer of the two whole numbers around this one that stand for it. -/
def nearestWhole? (v : Magnitude) (tie : Tie) : Option Nat :=
  let d := v.num / v.den
  match v.admits d, v.admits (d + 1) with
  | true, true =>
    match compare (2 * v.num) ((2 * d + 1) * v.den), tie with
    | .lt, _ => some d
    | .gt, _ => some (d + 1)
    | .eq, .toEven => some (if d % 2 = 0 then d else d + 1)
    | .eq, .up => some (d + 1)
  | true, false => some d
  | false, true => some (d + 1)
  | false, false => none

end Magnitude

/-- Move the trailing zeros of the digits into the exponent. -/
def Scaled.trim (s : Scaled) : (fuel : Nat) → Scaled
  | 0 => s
  | fuel + 1 =>
    if s.digits ≠ 0 ∧ s.digits % 10 = 0 then trim ⟨s.digits / 10, s.exponent + 1⟩ fuel else s

/-- The fewest digits that read back to the number, the nearest of those. -/
def Magnitude.shortest (v : Magnitude) (tie : Tie) : Scaled :=
  if v.num = 0 then ⟨0, 0⟩
  else
    let lead := leadingExponent v.num v.den
    let found := (List.range 17).findSome? fun (n : Nat) =>
      let exponent : Int := lead - n
      ((v.inUnits exponent).nearestWhole? tie).map fun d => Scaled.mk d exponent
    (found.getD ⟨0, 0⟩).trim 17

/-! ## Laying digits out

Digits are laid out positionally or with an exponent. `Layout` holds the decisions of one format,
and `fixed` rounds to a set number of places, half to even. -/

/-- The decisions of a number format. -/
structure Layout where
  /-- Where an exact tie between two shortest candidates goes. -/
  tie : Tie
  /-- Which powers of ten of the first digit are written without an exponent. -/
  positional : Int → Bool
  /-- Whether a whole number is written with a point and a zero. -/
  pointed : Bool

/-- `units / 10 ^ places`, with that many digits after the point. -/
def ofUnits (negative : Bool) (units places : Nat) : Numeral where
  negative
  whole := units / tenPow places
  fraction := paddedDigits places (units % tenPow places)
  exponent := none

/-- The numeral of `digits * 10 ^ exponent` in this format. -/
def Layout.numeral (l : Layout) (negative : Bool) (s : Scaled) : Numeral :=
  let ds := digits s.digits
  let lead := s.exponent + ds.length - 1
  if l.positional lead then
    if s.exponent < 0 then ofUnits negative s.digits s.exponent.natAbs
    else
      { negative
        whole := s.digits * tenPow s.exponent.toNat
        fraction := if l.pointed then digits 0 else []
        exponent := none }
  else
    { negative
      whole := ofDigits (ds.take 1)
      fraction := ds.drop 1
      exponent := some lead }

/-- The natural number nearest to `num / den`, the even one of two equally near ones. -/
def roundHalfEven (num den : Nat) : Nat :=
  let q := num / den
  match compare (2 * (num % den)) den with
  | .lt => q
  | .gt => q + 1
  | .eq => q + q % 2

/-- `num / den` with `places` digits after the point. -/
def fixed (places : Nat) (negative : Bool) (num den : Nat) : Numeral :=
  ofUnits negative (roundHalfEven (num * tenPow places) den) places

end MovingTarget.Decimal
