import MovingTarget.Json.Text
import MovingTarget.Proofs.Decimal.Shortest
/-!
# Doubles written as numerals read back

A double has a numeral exactly if it is finite (`isSome_numeral?`), its numeral reads back as the
same double, the sign of zero included (`toDouble?_numeral?`), and whatever a numeral reads as is
finite (`isFinite_of_toDouble?`).
-/
namespace MovingTarget.Decimal
open MovingTarget

/-- The number that a numeral names, its sign aside. -/
def absolute (n : Numeral) : ℚ := n.units * 10 ^ n.scale

/-! ## Laying out -/

@[simp] theorem Layout.negative_numeral (l : Layout) (negative : Bool) (s : Scaled) :
    (l.numeral negative s).negative = negative := by
  simp only [Layout.numeral]
  split
  · split <;> rfl
  · rfl

/-- However digits are laid out, the numeral names their number. -/
theorem Layout.absolute_numeral (l : Layout) (negative : Bool) (s : Scaled) :
    absolute (l.numeral negative s) = s.value := by
  simp only [Layout.numeral]
  split
  · split
    · -- The point cuts the digits in two.
      have hunits : (ofUnits negative s.digits s.exponent.natAbs).units = s.digits := by
        simp only [Numeral.units, ofUnits, length_paddedDigits, ofDigits_paddedDigits]
        rw [← tenPow_eq, Nat.mod_mod]
        exact Nat.div_add_mod' _ _
      have hscale : (ofUnits negative s.digits s.exponent.natAbs).scale = s.exponent := by
        simp only [Numeral.scale, ofUnits, length_paddedDigits, Option.getD_none]
        omega
      rw [absolute, hunits, hscale, Scaled.value]
    · -- What follows the point is zero.
      have hzero : ofDigits (if l.pointed then digits 0 else []) = 0 := by
        split
        · exact ofDigits_digits 0
        · rfl
      generalize (if l.pointed then digits 0 else []) = fraction at hzero
      have hscale : s.exponent = s.exponent.toNat := by omega
      simp only [absolute, Numeral.units, Numeral.scale, hzero, Option.getD_none, add_zero,
        Nat.cast_mul, cast_tenPow, zero_sub, Scaled.value]
      rw [zpow_neg, zpow_natCast, mul_inv_cancel_right₀ (by positivity), ← zpow_natCast, ← hscale]
  · -- The point stands behind the first digit.
    have hunits : ofDigits ((digits s.digits).take 1) * 10 ^ ((digits s.digits).drop 1).length +
        ofDigits ((digits s.digits).drop 1) = s.digits := by
      rw [← ofDigits_append, List.take_append_drop, ofDigits_digits]
    have hlength := List.length_pos_of_ne_nil (digits_ne_nil s.digits)
    have hscale : s.exponent + (digits s.digits).length - 1 - ((digits s.digits).drop 1).length =
        s.exponent := by
      rw [List.length_drop]
      omega
    simp only [absolute, Numeral.units, Numeral.scale, Option.getD_some, tenPow_eq, hunits, hscale,
      Scaled.value]

/-! ## Reading -/

section Reading
variable {n : Numeral} {significand : Nat} {exponent : Int}

theorem toDouble?_of_stands (hc : Canonical significand exponent) (hpos : 0 < significand)
    (hn : Stands significand exponent (absolute n)) :
    n.toDouble? = some (ofParts n.negative significand exponent) := by
  have hfinite := isFinite_ofParts false hc
  rw [Numeral.toDouble?, nearestDouble_eq hc hpos hn, if_pos hfinite]
  cases n.negative with
  | false => rfl
  | true => rw [if_pos rfl, neg_ofParts false hc, Bool.not_false]

theorem toDouble?_of_zero (hn : n.units = 0) :
    n.toDouble? = some (ofParts n.negative 0 (-1074)) := by
  have hc : Canonical 0 (-1074) := ⟨by decide, .inr rfl, le_rfl, by decide⟩
  have hzero : Numeral.nearestDouble n.units n.scale = ofParts false 0 (-1074) := by
    rw [Numeral.nearestDouble, hn, if_pos (.inl rfl)]
    decide
  rw [Numeral.toDouble?, hzero, if_pos (isFinite_ofParts false hc)]
  cases n.negative with
  | false => rfl
  | true => rw [if_pos rfl, neg_ofParts false hc, Bool.not_false]

end Reading

/-! ## Counts -/

theorem isSome_toDouble?_ofNat {n : Nat} (hn : n < 2 ^ 53) :
    (Numeral.ofNat n).toDouble?.isSome := by
  have hunits : (Numeral.ofNat n).units = n := by
    change n * 10 ^ 0 + 0 = n
    omega
  rcases Nat.eq_zero_or_pos n with rfl | hpos
  · rw [toDouble?_of_zero hunits]
    rfl
  · obtain ⟨significand, exponent, hc, hlead, heq⟩ := exists_canonical_nat hpos hn
    have habsolute : absolute (Numeral.ofNat n) = significand * 2 ^ exponent := by
      rw [absolute, hunits, heq]
      exact mul_one _
    rw [toDouble?_of_stands hc (by omega) (habsolute ▸ stands_self significand exponent)]
    rfl

end MovingTarget.Decimal

namespace MovingTarget.Json
open Decimal

/-- Whatever a numeral reads as is finite. -/
theorem isFinite_of_toDouble? {n : Numeral} {x : Float} (h : n.toDouble? = some x) :
    x.isFinite := by
  rw [Numeral.toDouble?] at h
  split at h
  · next hfinite =>
    cases h
    split
    · exact isFinite_neg hfinite
    · exact hfinite
  · cases h

/-- A double has a numeral exactly if it is finite. -/
theorem isSome_numeral? (x : Float) : (numeral? x).isSome = x.isFinite := by
  cases hx : x.isFinite with
  | false =>
    rcases ofFloat_of_not_isFinite hx with h | ⟨negative, h⟩
    · rw [numeral?, h]
      rfl
    · rw [numeral?, h]
      rfl
  | true =>
    obtain ⟨negative, significand, exponent, hc, rfl⟩ := isFinite_iff.1 hx
    rw [numeral?, ofFloat_ofParts negative hc]
    rfl

/-- The numeral of a double reads back as that double. -/
theorem toDouble?_numeral? {x : Float} {n : Numeral} (h : numeral? x = some n) :
    n.toDouble? = some x := by
  have hx : x.isFinite := by rw [← isSome_numeral?, h]; rfl
  obtain ⟨negative, significand, exponent, hc, rfl⟩ := isFinite_iff.1 hx
  rw [numeral?, ofFloat_ofParts negative hc] at h
  cases h
  have hnegative := numberLayout.negative_numeral negative
    ((magnitude significand exponent).shortest numberLayout.tie)
  have hvalue := numberLayout.absolute_numeral negative
    ((magnitude significand exponent).shortest numberLayout.tie)
  rcases Nat.eq_zero_or_pos significand with rfl | hpos
  · have hexponent : exponent = -1074 := hc.leading.resolve_left (by decide)
    have hnum : (magnitude 0 exponent).num = 0 := Nat.zero_mul _
    have hshortest : (magnitude 0 exponent).shortest numberLayout.tie = ⟨0, 0⟩ := if_pos hnum
    have hunits : (numberLayout.numeral negative
        ((magnitude 0 exponent).shortest numberLayout.tie)).units = 0 := by
      rw [hshortest, absolute, Scaled.value, Nat.cast_zero, zero_mul] at hvalue
      rw [hshortest]
      have := (mul_eq_zero.1 hvalue).resolve_right (zpow_ne_zero _ (by norm_num))
      exact_mod_cast this
    have hread := toDouble?_of_zero hunits
    rw [hnegative] at hread
    rw [hexponent]
    exact hexponent ▸ hread
  · have hread := toDouble?_of_stands hc hpos (hvalue ▸ stands_shortest hc hpos numberLayout.tie)
    rw [hnegative] at hread
    exact hread

end MovingTarget.Json
