/-!
# Decimal numerals

A numeral is a decimal number as it is written: a sign, a whole part without leading zeros, the
digits after the point and an exponent of ten. `ofDigits_digits` says that the digits of a natural
number name it. `toNat?` reads a numeral that is written as a plain natural number, `toDouble?`
takes the nearest double and refuses a number beyond the largest one.
-/
namespace MovingTarget.Decimal

abbrev Digit := Fin 10

def Digit.char (d : Digit) : Char := Nat.digitChar d

def Digit.ofChar? (c : Char) : Option Digit :=
  if '0' ≤ c ∧ c ≤ '9' then some (Fin.ofNat 10 (c.toNat - '0'.toNat)) else none

theorem Digit.ofChar?_char (d : Digit) : Digit.ofChar? d.char = some d := by
  revert d; decide

/-- The number that a run of digits names, most significant first. -/
def ofDigits (ds : List Digit) : Nat := ds.foldl (fun n d => 10 * n + d.val) 0

/-- The digits of `n` in front of `tail`. -/
def digitsOnto (n : Nat) (tail : List Digit) : List Digit :=
  if n < 10 then Fin.ofNat 10 n :: tail else digitsOnto (n / 10) (Fin.ofNat 10 n :: tail)
termination_by n

/-- The digits of `n` without leading zeros; zero has the one digit `0`. -/
def digits (n : Nat) : List Digit := digitsOnto n []

theorem foldl_digitsOnto (n : Nat) (tail : List Digit) :
    (digitsOnto n tail).foldl (fun n d => 10 * n + d.val) 0
      = tail.foldl (fun n d => 10 * n + d.val) n := by
  induction n using Nat.strongRecOn generalizing tail with
  | _ n ih =>
    rw [digitsOnto]
    split
    · next h => simp [Fin.ofNat, Nat.mod_eq_of_lt h]
    · rw [ih (n / 10) (by omega)]
      simp only [List.foldl_cons, Fin.ofNat]
      rw [Nat.div_add_mod]

theorem ofDigits_digits (n : Nat) : ofDigits (digits n) = n := by
  simp [ofDigits, digits, foldl_digitsOnto]

/-- Ten to the power `n`. -/
abbrev tenPow (n : Nat) : Nat := Nat.pow 10 n

/-- The `places` lowest digits of `n`, padded with zeros. -/
def paddedDigits (places n : Nat) : List Digit :=
  match places with
  | 0 => []
  | p + 1 => paddedDigits p (n / 10) ++ [Fin.ofNat 10 n]

end MovingTarget.Decimal

namespace MovingTarget

/-- A decimal number as it is written. -/
structure Numeral where
  negative : Bool
  whole : Nat
  /-- The digits after the point; no point is written when there are none. -/
  fraction : List Decimal.Digit
  exponent : Option Int
  deriving DecidableEq

namespace Numeral
open Decimal

def ofNat (n : Nat) : Numeral := ⟨false, n, [], none⟩

def digitChars (ds : List Digit) : List Char := ds.map Digit.char

/-- An exponent is written with its sign. -/
def exponentChars : Option Int → List Char
  | none => []
  | some e => 'e' :: (if e < 0 then '-' else '+') :: digitChars (digits e.natAbs)

def chars (n : Numeral) : List Char :=
  (if n.negative then ['-'] else []) ++ digitChars (digits n.whole)
    ++ (if n.fraction.isEmpty then [] else '.' :: digitChars n.fraction)
    ++ exponentChars n.exponent

def text (n : Numeral) : String := String.ofList n.chars

/-! ## Reading -/

/-- The digits of the numeral as one natural number, in units of `10 ^ scale`. -/
def units (n : Numeral) : Nat := n.whole * tenPow n.fraction.length + ofDigits n.fraction

def scale (n : Numeral) : Int := n.exponent.getD 0 - n.fraction.length

/-- Only a numeral without sign, point and exponent reads as a natural number. -/
def toNat? (n : Numeral) : Option Nat :=
  if !n.negative && n.fraction.isEmpty && n.exponent.isNone then some n.whole else none

@[simp] theorem toNat?_ofNat (k : Nat) : (ofNat k).toNat? = some k := rfl

/-- The double nearest to `units * 10 ^ scale`. Powers of ten far outside the range of doubles are
settled from the number of digits. -/
def nearestDouble (units : Nat) (scale : Int) : Float :=
  let lead := (digits units).length + scale
  if units = 0 ∨ lead < -400 then 0.0
  else if 400 < lead then 1.0 / 0.0
  else .ofScientific units (decide (scale < 0)) scale.natAbs

/-- The nearest double, if it is finite. -/
def toDouble? (n : Numeral) : Option Float :=
  let x := nearestDouble n.units n.scale
  if x.isFinite then some (if n.negative then -x else x) else none

end Numeral
end MovingTarget
