import Mathlib.Algebra.Order.Field.Power
import Mathlib.Data.Rat.Cast.Order
import Mathlib.Tactic.FieldSimp
import Mathlib.Tactic.Linarith
import MovingTarget.Proofs.Decimal.Doubles
/-!
# Rounding to the nearest double

A number stands for a double if no other double is nearer, and none as near unless the significand
is even (`Stands`). Rounding finds the double that a number stands for (`roundWithAccuracy_eq`).
The number enters through a mantissa that may have lost its lower bits: of those it is enough to
know the first one and whether any other is set (`Describes`), which halving preserves.
-/
namespace MovingTarget.Decimal
open Float.Model Float.Model.UnpackedFloat

/-! ## Mantissas with two bits more -/

/-- The mantissa and the two residual bits tell of `z` what rounding needs. -/
def Describes (em : ExtendedMantissa) (z : ℚ) : Prop :=
  ∃ δ, 0 ≤ δ ∧ δ < 1 / 2 ∧ (em.stickyBit = true ↔ δ ≠ 0) ∧
    z = em.mantissa + (if em.roundBit then 1 / 2 else 0) + δ

theorem describes_exact (mantissa : Nat) :
    Describes (.ofMantissaAndAccuracy mantissa .exact) mantissa :=
  ⟨0, le_rfl, by norm_num, by simp [ExtendedMantissa.ofMantissaAndAccuracy], by
    simp [ExtendedMantissa.ofMantissaAndAccuracy]⟩

theorem Describes.shiftRightOne {em : ExtendedMantissa} {z : ℚ} (h : Describes em z) :
    Describes em.shiftRightOne (z / 2) := by
  obtain ⟨δ, h0, hlt, hsticky, rfl⟩ := h
  obtain ⟨m, r, sticky⟩ := em
  -- What was the round bit joins the lower bits.
  refine ⟨(if r then 1 / 4 else 0) + δ / 2, ?_, ?_, ?_, ?_⟩
  · split <;> linarith
  · split <;> linarith
  · simp only [ExtendedMantissa.shiftRightOne, Bool.or_eq_true, hsticky]
    cases r
    · simp
    · simp only [true_or, if_true, ne_eq, true_iff]
      linarith
  · have hm : (m : ℚ) = 2 * (m / 2 : Nat) + (m % 2 : Nat) := by
      exact_mod_cast (Nat.div_add_mod m 2).symm
    rcases Nat.mod_two_eq_zero_or_one m with hbit | hbit
    all_goals
      simp only [ExtendedMantissa.shiftRightOne, hm, hbit]
      cases r <;> simp <;> ring

theorem Describes.shiftRight {em : ExtendedMantissa} {z : ℚ} (h : Describes em z) (n : Nat) :
    Describes (em >>> n) (z / 2 ^ n) := by
  induction n with
  | zero =>
    rw [pow_zero, div_one]
    exact h
  | succ n ih =>
    have := ih.shiftRightOne
    rw [div_div, ← pow_succ] at this
    exact this

/-- The numbers that round to `n`: those half-way go to an even number. -/
structure Around (n : Nat) (z : ℚ) : Prop where
  low : n - 1 / 2 ≤ z
  high : z ≤ n + 1 / 2
  odd : n % 2 = 1 → n - 1 / 2 < z ∧ z < n + 1 / 2

theorem Describes.roundedMantissa_eq {em : ExtendedMantissa} {z : ℚ} (h : Describes em z) {n : Nat}
    (hn : Around n z) : em.roundedMantissa = n := by
  obtain ⟨δ, h0, hlt, hsticky, rfl⟩ := h
  obtain ⟨m, r, sticky⟩ := em
  obtain ⟨hlow, hhigh, hodd⟩ := hn
  have hzero : sticky = false → δ = 0 := by
    rintro rfl
    by_contra hne
    exact Bool.false_ne_true (hsticky.2 hne)
  have hpos : sticky = true → 0 < δ := fun hs => lt_of_le_of_ne h0 (Ne.symm (hsticky.1 hs))
  have hbelow {a b : Nat} (h : (a : ℚ) < b + 1) : a ≤ b := Nat.lt_succ_iff.1 (by exact_mod_cast h)
  cases r <;> cases sticky <;> simp only [Bool.false_eq_true, if_true, if_false] at hlow hhigh hodd
  · change m = n
    rw [hzero rfl] at hlow hhigh
    exact le_antisymm (hbelow (by linarith)) (hbelow (by linarith))
  · change m = n
    have := hpos rfl
    exact le_antisymm (hbelow (by linarith)) (hbelow (by linarith))
  · change m + m % 2 = n
    rw [hzero rfl] at hlow hhigh hodd
    have h1 : m ≤ n := hbelow (by linarith)
    have h2 : n ≤ m + 1 := by
      have : (n : ℚ) ≤ ((m + 1 : Nat) : ℚ) := by push_cast; linarith
      exact_mod_cast this
    have h3 : n % 2 ≠ 1 := by
      intro hn
      obtain ⟨hl, hr⟩ := hodd hn
      have : n < m + 1 := by
        have : (n : ℚ) < ((m + 1 : Nat) : ℚ) := by push_cast; linarith
        exact_mod_cast this
      have : m < n := by
        have : (m : ℚ) < (n : ℚ) := by linarith
        exact_mod_cast this
      omega
    omega
  · change m + 1 = n
    have := hpos rfl
    have h1 : m + 1 ≤ n := hbelow (by push_cast; linarith)
    exact le_antisymm h1 (hbelow (by push_cast; linarith))

/-! ## The numbers that stand for a double -/

/-- How far below a significand the numbers reach that stand for it: half-way to the next double
down, which is nearer than the next one up where the exponent changes. -/
def gap (significand : Nat) (exponent : Int) : ℚ :=
  if significand = 2 ^ 52 ∧ exponent ≠ -1074 then 1 / 4 else 1 / 2

/-- The numbers that stand for `significand * 2 ^ exponent`. -/
structure Stands (significand : Nat) (exponent : Int) (q : ℚ) : Prop where
  low : (significand - gap significand exponent) * 2 ^ exponent ≤ q
  high : q ≤ (significand + 1 / 2) * 2 ^ exponent
  odd : significand % 2 = 1 → (significand - gap significand exponent) * 2 ^ exponent < q ∧
    q < (significand + 1 / 2) * 2 ^ exponent

theorem gap_le (significand : Nat) (exponent : Int) : gap significand exponent ≤ 1 / 2 := by
  unfold gap
  split <;> norm_num

theorem gap_pos (significand : Nat) (exponent : Int) : 0 < gap significand exponent := by
  unfold gap
  split <;> norm_num

section Exponent
variable {significand : Nat} {exponent : Int} {q : ℚ}

theorem two_zpow_add (a b : Int) : (2 : ℚ) ^ (a + b) = 2 ^ a * 2 ^ b := zpow_add₀ two_ne_zero a b

theorem Stands.around (h : Stands significand exponent q) :
    Around significand (q / 2 ^ exponent) := by
  have hpow : (0 : ℚ) < 2 ^ exponent := zpow_pos two_pos _
  have hgap := gap_le significand exponent
  refine ⟨?_, ?_, fun hodd => ?_⟩
  · have := (le_div_iff₀ hpow).2 h.low
    linarith
  · exact (div_le_iff₀ hpow).2 h.high
  · have := (lt_div_iff₀ hpow).2 (h.odd hodd).1
    exact ⟨by linarith, (div_lt_iff₀ hpow).2 (h.odd hodd).2⟩

theorem Stands.lt_pow (h : Stands significand exponent q) (hc : Canonical significand exponent) :
    q < 2 ^ (exponent + 53) := by
  have hpow : (0 : ℚ) < 2 ^ exponent := zpow_pos two_pos _
  have hs : (significand : ℚ) ≤ 2 ^ 53 - 1 := by
    have := hc.significand_lt
    have : ((significand + 1 : Nat) : ℚ) ≤ ((2 ^ 53 : Nat) : ℚ) := by exact_mod_cast this
    push_cast at this
    linarith
  calc q ≤ (significand + 1 / 2) * 2 ^ exponent := h.high
    _ < 2 ^ 53 * 2 ^ exponent := by
      apply mul_lt_mul_of_pos_right _ hpow
      linarith
    _ = 2 ^ (exponent + 53) := by rw [two_zpow_add, mul_comm]; rfl

/-- The binade of a number gives the exponent of the double that it stands for, unless that double
is the power of two at the upper end of the binade. -/
theorem exponent_of_stands (hc : Canonical significand exponent)
    (hq : Stands significand exponent q) {t : Int} (ht : -1074 ≤ t) (hhigh : q < 2 ^ (t + 53))
    (hlow : t = -1074 ∨ 2 ^ (t + 52) ≤ q) :
    exponent = t ∨ (exponent = t + 1 ∧ significand = 2 ^ 52) := by
  have hmono {a b : Int} (h : (2 : ℚ) ^ a < 2 ^ b) : a < b :=
    (zpow_lt_zpow_iff_right₀ one_lt_two).1 h
  have hge : t ≤ exponent := by
    rcases hlow with rfl | hlow
    · exact hc.low
    · have := hmono (hlow.trans_lt (hq.lt_pow hc))
      omega
  rcases hge.eq_or_lt with heq | hlt
  · exact .inl heq.symm
  · have hreach {k : Nat} (h : (2 : ℚ) ^ k ≤ significand - gap significand exponent) :
        exponent + k < t + 53 := by
      apply hmono
      calc (2 : ℚ) ^ (exponent + k) = 2 ^ k * 2 ^ exponent := by
            rw [two_zpow_add, mul_comm, zpow_natCast]
        _ ≤ (significand - gap significand exponent) * 2 ^ exponent :=
            mul_le_mul_of_nonneg_right h (zpow_pos two_pos _).le
        _ < 2 ^ (t + 53) := hq.low.trans_lt hhigh
    have hgap := gap_le significand exponent
    have hlead : 2 ^ 52 ≤ significand := hc.leading.resolve_right (by omega)
    rcases hlead.eq_or_lt with heq | hgt
    · have hsig : (significand : ℚ) = 2 ^ 52 := by rw [← heq]; norm_num
      have := hreach (k := 51) (by rw [hsig]; linarith)
      exact .inr ⟨by omega, heq.symm⟩
    · have hsig : (2 : ℚ) ^ 52 + 1 ≤ significand := by exact_mod_cast hgt
      have := hreach (k := 52) (by linarith)
      omega
end Exponent

/-! ## Rounding -/

theorem targetExponent_eq (mantissa : Nat) (exponent : Int) :
    Format.binary64.targetExponent (totalExponent mantissa exponent) =
      max (mantissa.log2 + exponent - 52) (-1074) := by
  simp only [Format.targetExponent, Format.minExponent, Format.mantissaBits, totalExponent]
  congr 1
  omega

/-- Shifting up to an exponent divides by the power of two between. -/
theorem shiftToExponent_eq {mantissa : Nat} {exponent t : Int} (h : exponent ≤ t)
    (accuracy : Accuracy) {z : ℚ}
    (hz : Describes (.ofMantissaAndAccuracy mantissa accuracy) z) :
    ∃ em, shiftToExponent mantissa exponent accuracy t = (em, t) ∧
      Describes em (z * 2 ^ exponent / 2 ^ t) := by
  refine ⟨_, Prod.ext rfl (by simp only [shiftToExponent]; omega), ?_⟩
  have hn : ((t - exponent).toNat : Int) = t - exponent := Int.toNat_of_nonneg (by omega)
  have hpow : z * 2 ^ exponent / 2 ^ t = z / 2 ^ (t - exponent).toNat := by
    rw [← zpow_natCast, hn, zpow_sub₀ two_ne_zero]
    field_simp
  rw [hpow]
  exact hz.shiftRight _

/-- A canonical number is at its target exponent. -/
theorem shiftToTargetExponent_canonical {significand : Nat} {exponent : Int}
    (h : Canonical significand exponent) :
    shiftToTargetExponent .binary64 significand exponent .exact =
      (⟨significand, false, false⟩, exponent) := by
  have hlog : significand.log2 ≤ 52 := by
    rcases Nat.eq_zero_or_pos significand with rfl | hpos
    · decide
    · exact Nat.lt_succ_iff.1 ((Nat.log2_lt hpos.ne').2 h.significand_lt)
  have hlow := h.low
  have hshift : (max ((significand.log2 : Int) + exponent - 52) (-1074) - exponent).toNat = 0 := by
    omega
  rw [shiftToTargetExponent, targetExponent_eq, shiftToExponent, hshift]
  exact Prod.ext rfl (by simp)

/-- A significand that was rounded up to one bit more is halved. -/
theorem shiftToTargetExponent_overflow {exponent : Int} (h : -1074 ≤ exponent) :
    shiftToTargetExponent .binary64 (2 ^ 53) exponent .exact =
      (⟨2 ^ 52, false, false⟩, exponent + 1) := by
  have hlog : (2 ^ 53 : Nat).log2 = 53 := by decide
  have hshift : (max ((53 : Nat) + exponent - 52) (-1074) - exponent).toNat = 1 := by omega
  rw [shiftToTargetExponent, targetExponent_eq, shiftToExponent, hlog, hshift]
  rfl

theorem roundWithAccuracy_of_shifts {mantissa : Nat} {exponent t target : Int} {accuracy : Accuracy}
    {em final : ExtendedMantissa}
    (hfirst : shiftToTargetExponent .binary64 mantissa exponent accuracy = (em, t))
    (hsecond : shiftToTargetExponent .binary64 em.roundedMantissa t .exact = (final, target))
    (s : Sign) :
    roundWithAccuracy .binary64 s mantissa exponent accuracy =
      unpacked s final.mantissa target := by
  simp only [roundWithAccuracy, hfirst, hsecond, unpacked]
  by_cases h : final.mantissa = 0
  · rw [dif_pos h, dif_neg (by omega)]
  · rw [dif_neg h, dif_pos (Nat.pos_of_ne_zero h)]

/-- A number is at least its mantissa and less than one more. -/
theorem Describes.mantissa_le {em : ExtendedMantissa} {z : ℚ} (hz : Describes em z) :
    em.mantissa ≤ z ∧ z < em.mantissa + 1 := by
  obtain ⟨δ, h0, hlt, -, rfl⟩ := hz
  split <;> constructor <;> linarith

theorem mantissa_ofMantissaAndAccuracy (mantissa : Nat) (accuracy : Accuracy) :
    (ExtendedMantissa.ofMantissaAndAccuracy mantissa accuracy).mantissa = mantissa := by
  cases accuracy with
  | exact => rfl
  | inexact o => cases o <;> rfl

/-- The leading bit of a mantissa tells between which powers of two the number lies. -/
theorem Describes.bounds {mantissa : Nat} {accuracy : Accuracy} {z : ℚ}
    (hz : Describes (.ofMantissaAndAccuracy mantissa accuracy) z) (exponent : Int) :
    z * 2 ^ exponent < 2 ^ (mantissa.log2 + exponent + 1) ∧
      (mantissa = 0 ∨ 2 ^ (mantissa.log2 + exponent) ≤ z * 2 ^ exponent) := by
  obtain ⟨hlow, hhigh⟩ := hz.mantissa_le
  rw [mantissa_ofMantissaAndAccuracy] at hlow hhigh
  have hpow : (0 : ℚ) < 2 ^ exponent := zpow_pos two_pos _
  have hlog : ((mantissa + 1 : Nat) : ℚ) ≤ ((2 ^ (mantissa.log2 + 1) : Nat) : ℚ) := by
    exact_mod_cast Nat.lt_log2_self
  constructor
  · calc z * 2 ^ exponent < (mantissa + 1 : Nat) * 2 ^ exponent := by
          apply mul_lt_mul_of_pos_right _ hpow
          push_cast
          exact hhigh
      _ ≤ (2 ^ (mantissa.log2 + 1) : Nat) * 2 ^ exponent := mul_le_mul_of_nonneg_right hlog hpow.le
      _ = 2 ^ (mantissa.log2 + exponent + 1) := by
          rw [add_right_comm, two_zpow_add]
          push_cast
          rfl
  · rcases Nat.eq_zero_or_pos mantissa with h0 | hpos
    · exact .inl h0
    · have hself : ((2 ^ mantissa.log2 : Nat) : ℚ) ≤ mantissa := by
        exact_mod_cast Nat.log2_self_le hpos.ne'
      refine .inr ?_
      calc (2 : ℚ) ^ (mantissa.log2 + exponent) = (2 ^ mantissa.log2 : Nat) * 2 ^ exponent := by
            rw [two_zpow_add]
            push_cast
            rfl
        _ ≤ z * 2 ^ exponent := mul_le_mul_of_nonneg_right (hself.trans hlow) hpow.le

/-- Below a power of two that is a double, the numbers that stand for it round up to one bit
more. -/
theorem Stands.around_overflow {t : Int} {q : ℚ} (h : Stands (2 ^ 52) (t + 1) q) (ht : -1074 ≤ t)
    (hq : q < 2 ^ (t + 53)) : Around (2 ^ 53) (q / 2 ^ t) := by
  have hpow : (0 : ℚ) < 2 ^ t := zpow_pos two_pos _
  have hlow := h.low
  rw [gap, if_pos ⟨rfl, by omega⟩, two_zpow_add, zpow_one] at hlow
  rw [two_zpow_add] at hq
  have hge : ((2 : ℚ) ^ 53 - 1 / 2) ≤ q / 2 ^ t := by
    rw [le_div_iff₀ hpow]
    push_cast at hlow
    linarith
  have hlt : q / 2 ^ t < 2 ^ 53 := by
    rw [div_lt_iff₀ hpow, mul_comm]
    exact hq
  exact ⟨by push_cast; exact hge, by push_cast; linarith, fun h => absurd h (by decide)⟩

/-- Rounding finds the double that the number stands for. -/
theorem roundWithAccuracy_eq {significand : Nat} {exponent : Int}
    (hc : Canonical significand exponent) {mantissa : Nat} {start : Int}
    {accuracy : Accuracy} {z : ℚ} (hz : Describes (.ofMantissaAndAccuracy mantissa accuracy) z)
    (hstart : start ≤ max (mantissa.log2 + start - 52) (-1074))
    (hq : Stands significand exponent (z * 2 ^ start)) (s : Sign) :
    roundWithAccuracy .binary64 s mantissa start accuracy = unpacked s significand exponent := by
  obtain ⟨em, hshift, hdesc⟩ := shiftToExponent_eq hstart accuracy hz
  have hfirst := hshift
  rw [← targetExponent_eq] at hfirst
  change shiftToTargetExponent .binary64 mantissa start accuracy = _ at hfirst
  rw [targetExponent_eq] at hfirst
  generalize ht : max ((mantissa.log2 : Int) + start - 52) (-1074) = t at hfirst hdesc
  obtain ⟨hhigh, hlow⟩ := hz.bounds start
  have hmono {a b : Int} (h : a ≤ b) : (2 : ℚ) ^ a ≤ 2 ^ b := zpow_le_zpow_right₀ one_le_two h
  have hlt : z * 2 ^ start < 2 ^ (t + 53) := hhigh.trans_le (hmono (by omega))
  have hexp : exponent = t ∨ (exponent = t + 1 ∧ significand = 2 ^ 52) := by
    apply exponent_of_stands hc hq (by omega) hlt
    rcases hlow with rfl | hlow
    · rw [Nat.log2_zero] at ht hstart
      omega
    · by_cases hmin : t = -1074
      · exact .inl hmin
      · exact .inr ((hmono (by omega)).trans hlow)
  rcases hexp with rfl | ⟨rfl, rfl⟩
  · have hround := hdesc.roundedMantissa_eq hq.around
    have hsecond : shiftToTargetExponent .binary64 em.roundedMantissa exponent .exact =
        (⟨significand, false, false⟩, exponent) := by
      rw [hround]
      exact shiftToTargetExponent_canonical hc
    exact roundWithAccuracy_of_shifts hfirst hsecond s
  · have hround := hdesc.roundedMantissa_eq (hq.around_overflow (by omega) hlt)
    have hsecond : shiftToTargetExponent .binary64 em.roundedMantissa t .exact =
        (⟨2 ^ 52, false, false⟩, t + 1) := by
      rw [hround]
      exact shiftToTargetExponent_overflow (by omega)
    exact roundWithAccuracy_of_shifts hfirst hsecond s

end MovingTarget.Decimal
