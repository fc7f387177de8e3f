import Mathlib.Tactic.NormNum
import MovingTarget.Proofs.Decimal.Numerals
import MovingTarget.Proofs.Decimal.Rounding
/-!
# Decimal numbers read as the double they stand for

A decimal number is read by one multiplication or division, of doubles where both operands are
doubles and of natural numbers otherwise. Either way the double comes out for which the number
stands (`nearestDouble_eq`).
-/
namespace MovingTarget.Decimal
open Float.Model Float.Model.UnpackedFloat

theorem stands_self (significand : Nat) (exponent : Int) :
    Stands significand exponent (significand * 2 ^ exponent) := by
  have hpow : (0 : ℚ) < 2 ^ exponent := zpow_pos two_pos _
  have hgap := gap_pos significand exponent
  have hlow : (significand - gap significand exponent) * 2 ^ exponent <
      significand * 2 ^ exponent := mul_lt_mul_of_pos_right (by linarith) hpow
  have hhigh : (significand : ℚ) * 2 ^ exponent < (significand + 1 / 2) * 2 ^ exponent :=
    mul_lt_mul_of_pos_right (by linarith) hpow
  exact ⟨hlow.le, hhigh.le, fun _ => ⟨hlow, hhigh⟩⟩

/-! ## Products and quotients -/

/-- The quotient and the remainder tell of a fraction what rounding needs. -/
theorem describes_fraction (num : Nat) {den : Nat} (hden : 0 < den) :
    Describes (.ofMantissaAndAccuracy (num / den) (accuracyOfFraction (num % den) den))
      ((num : ℚ) / den) := by
  have hden' : (0 : ℚ) < den := by exact_mod_cast hden
  have hsplit : (num : ℚ) / den = (num / den : Nat) + (num % den : Nat) / den := by
    have : (num : ℚ) = den * (num / den : Nat) + (num % den : Nat) := by
      exact_mod_cast (Nat.div_add_mod num den).symm
    rw [this, add_div, mul_div_cancel_left₀ _ hden'.ne']
  have hlt : (num % den : Nat) < (den : ℚ) := by exact_mod_cast Nat.mod_lt num hden
  rw [hsplit]
  generalize num / den = quotient
  generalize num % den = rest at hlt
  unfold accuracyOfFraction
  split
  · next h0 =>
    rw [h0, Nat.cast_zero, zero_div, add_zero]
    exact describes_exact _
  · next h0 =>
    have hpos : (0 : ℚ) < rest / den :=
      div_pos (by exact_mod_cast Nat.pos_of_ne_zero h0) hden'
    cases hcmp : compare (2 * rest) den with
    | lt =>
      have : (2 : ℚ) * rest < den := by exact_mod_cast compare_lt_iff_lt.1 hcmp
      refine ⟨rest / den, hpos.le, ?_, iff_of_true rfl hpos.ne', ?_⟩
      · rw [div_lt_iff₀ hden']
        linarith
      · simp [ExtendedMantissa.ofMantissaAndAccuracy]
    | eq =>
      have hhalf : (rest : ℚ) / den = 1 / 2 := by
        have : (2 : ℚ) * rest = den := by exact_mod_cast compare_eq_iff_eq.1 hcmp
        rw [div_eq_iff hden'.ne']
        linarith
      refine ⟨0, le_rfl, by norm_num, iff_of_false Bool.false_ne_true (by simp), ?_⟩
      simp [ExtendedMantissa.ofMantissaAndAccuracy, hhalf]
    | gt =>
      have : (den : ℚ) < 2 * rest := by exact_mod_cast compare_gt_iff_gt.1 hcmp
      have hmore : (1 : ℚ) / 2 < rest / den := by
        rw [lt_div_iff₀ hden']
        linarith
      have hone : (rest : ℚ) / den < 1 := by
        rw [div_lt_iff₀ hden']
        linarith
      refine ⟨rest / den - 1 / 2, by linarith, by linarith, iff_of_true rfl (by linarith), ?_⟩
      simp [ExtendedMantissa.ofMantissaAndAccuracy]

section Operations
variable {significand : Nat} {exponent : Int} {m₁ m₂ : Nat} {e₁ e₂ : Int}

theorem mul_eq (hc : Canonical significand exponent) (h₁ : 0 < m₁) (h₂ : 0 < m₂)
    (hlead : 2 ^ 52 ≤ m₁ * m₂ ∨ e₁ + e₂ ≤ -1074)
    (hq : Stands significand exponent (m₁ * 2 ^ e₁ * (m₂ * 2 ^ e₂))) :
    UnpackedFloat.mul .binary64 (.finite .positive m₁ e₁ h₁) (.finite .positive m₂ e₂ h₂) =
      unpacked .positive significand exponent := by
  refine roundWithAccuracy_eq hc (describes_exact (m₁ * m₂)) ?_ ?_ _
  · rcases hlead with hlead | hlow
    · have hlog : 52 ≤ (m₁ * m₂).log2 := (Nat.le_log2 (by omega)).2 hlead
      omega
    · exact hlow.trans (le_max_right _ _)
  · rw [two_zpow_add]
    push_cast
    rwa [mul_mul_mul_comm] at hq

theorem div_eq (hc : Canonical significand exponent) (h₁ : 0 < m₁) (h₂ : 0 < m₂)
    (hq : Stands significand exponent (m₁ * 2 ^ e₁ / (m₂ * 2 ^ e₂))) :
    UnpackedFloat.div .binary64 (.finite .positive m₁ e₁ h₁) (.finite .positive m₂ e₂ h₂) =
      unpacked .positive significand exponent := by
  simp only [UnpackedFloat.div, divCore]
  -- The exponent at which the quotient has enough bits, and how far that is below.
  generalize ht : min (e₁ - e₂) _ = t
  obtain ⟨k, hk⟩ : ∃ k : Nat, e₁ - e₂ - t = k := ⟨(e₁ - e₂ - t).toNat, by omega⟩
  rw [hk, Int.toNat_natCast, Nat.shiftLeft_eq]
  refine roundWithAccuracy_eq hc (describes_fraction _ h₂) ?_ ?_ _
  · -- Unless the exponent is the lowest one, the quotient fills the significand.
    have ht' : t ≤ max ((m₁.log2 : Int) + e₁ - (m₂.log2 + e₂) - 53) (-1074) := by
      rw [← ht, Format.targetExponent, Format.minExponent, Format.mantissaBits, totalExponent,
        totalExponent]
      norm_num
      omega
    rcases le_or_gt t (-1074) with hmin | hmin
    · exact hmin.trans (le_max_right _ _)
    · have hfull : 52 ≤ (m₁ * 2 ^ k / m₂).log2 := by
        have hk' : m₂.log2 + 53 ≤ m₁.log2 + k := by omega
        have hquotient : 2 ^ 52 ≤ m₁ * 2 ^ k / m₂ := by
          rw [Nat.le_div_iff_mul_le h₂]
          calc 2 ^ 52 * m₂ ≤ 2 ^ 52 * 2 ^ (m₂.log2 + 1) :=
                Nat.mul_le_mul_left _ Nat.lt_log2_self.le
            _ = 2 ^ (m₂.log2 + 53) := by rw [← Nat.pow_add]; congr 1; omega
            _ ≤ 2 ^ (m₁.log2 + k) := Nat.pow_le_pow_right two_pos hk'
            _ = 2 ^ m₁.log2 * 2 ^ k := Nat.pow_add _ _ _
            _ ≤ m₁ * 2 ^ k := Nat.mul_le_mul_right _ (Nat.log2_self_le h₁.ne')
        exact (Nat.le_log2 (by omega)).2 hquotient
      omega
  · have hpow : (2 : ℚ) ^ e₁ = 2 ^ e₂ * 2 ^ k * 2 ^ t := by
      rw [← zpow_natCast, ← two_zpow_add, ← two_zpow_add]
      congr 1
      omega
    have hz : ((m₁ * 2 ^ k : Nat) : ℚ) / m₂ * 2 ^ t = m₁ * 2 ^ e₁ / (m₂ * 2 ^ e₂) := by
      have : (0 : ℚ) < m₂ := by exact_mod_cast h₂
      have : (0 : ℚ) < 2 ^ e₂ := zpow_pos two_pos _
      rw [hpow]
      push_cast
      field_simp
    rwa [hz]

end Operations

/-! ## Reading through doubles -/

/-- A natural number that fits into a significand is a double. -/
theorem exists_canonical_nat {n : Nat} (hpos : 0 < n) (hlt : n < 2 ^ 53) :
    ∃ significand exponent, Canonical significand exponent ∧ 2 ^ 52 ≤ significand ∧
      (significand : ℚ) * 2 ^ exponent = n := by
  have hlog : n.log2 ≤ 52 := Nat.lt_succ_iff.1 ((Nat.log2_lt hpos.ne').2 hlt)
  have hlow : 2 ^ 52 ≤ n * 2 ^ (52 - n.log2) := by
    calc 2 ^ 52 = 2 ^ n.log2 * 2 ^ (52 - n.log2) := by rw [← Nat.pow_add]; congr 1; omega
      _ ≤ n * 2 ^ (52 - n.log2) := Nat.mul_le_mul_right _ (Nat.log2_self_le hpos.ne')
  have hhigh : n * 2 ^ (52 - n.log2) < 2 ^ 53 := by
    calc n * 2 ^ (52 - n.log2) < 2 ^ (n.log2 + 1) * 2 ^ (52 - n.log2) :=
          Nat.mul_lt_mul_of_pos_right Nat.lt_log2_self (Nat.two_pow_pos _)
      _ = 2 ^ 53 := by rw [← Nat.pow_add]; congr 1; omega
  refine ⟨n * 2 ^ (52 - n.log2), n.log2 - 52, ⟨hhigh, .inl hlow, by omega, by omega⟩, hlow, ?_⟩
  have hexp : (n.log2 : Int) - 52 = -((52 - n.log2 : Nat) : Int) := by omega
  rw [hexp, zpow_neg, zpow_natCast]
  push_cast
  field_simp

theorem ofNat_eq {significand : Nat} {exponent : Int} (hc : Canonical significand exponent)
    {n : Nat} (hpos : 0 < n) (hq : Stands significand exponent n) :
    UnpackedFloat.ofNat .binary64 n = unpacked .positive significand exponent := by
  have hcmp : compare (n : Int) 0 = .gt := compare_gt_iff_gt.2 (by exact_mod_cast hpos)
  rw [UnpackedFloat.ofNat, UnpackedFloat.ofInt, UnpackedFloat.normalize, hcmp]
  simp only [Int.toNat_natCast, UnpackedFloat.round, targetExponent_eq, decreaseExponent]
  generalize ht : max ((n.log2 : Int) + 0 - 52) (-1074) = t
  obtain ⟨k, hk⟩ : ∃ k : Nat, (0 - t).toNat = k := ⟨_, rfl⟩
  have hlog : (n <<< k).log2 = n.log2 + k := by
    have hlow := Nat.mul_le_mul_right (2 ^ k) (Nat.log2_self_le hpos.ne')
    have hhigh := Nat.mul_lt_mul_of_pos_right (Nat.lt_log2_self (n := n)) (Nat.two_pow_pos k)
    rw [← Nat.pow_add] at hlow hhigh
    rw [Nat.shiftLeft_eq, Nat.log2_eq_iff (by positivity)]
    exact ⟨hlow, by rwa [Nat.add_right_comm]⟩
  rw [hk]
  refine roundWithAccuracy_eq hc (describes_exact _) ?_ ?_ _
  · rw [hlog]
    omega
  · rw [Nat.shiftLeft_eq, zero_sub, zpow_neg, zpow_natCast]
    push_cast
    rwa [mul_inv_cancel_right₀ (by positivity)]

/-- A power of ten in the table has the significand that its leading 53 bits make, and no other
bits. -/
theorem exactlyRepresentablePowersOfTen_parts (e : Fin Float.exactlyRepresentablePowersOfTen.size) :
    10 ^ e.val * 2 ^ 52 / 2 ^ (10 ^ e.val).log2 * 2 ^ (10 ^ e.val).log2 = 10 ^ e.val * 2 ^ 52 ∧
      10 ^ e.val * 2 ^ 52 / 2 ^ (10 ^ e.val).log2 < 2 ^ 53 ∧
      2 ^ 52 ≤ 10 ^ e.val * 2 ^ 52 / 2 ^ (10 ^ e.val).log2 ∧
      (10 ^ e.val).log2 ≤ 1000 ∧
      Float.exactlyRepresentablePowersOfTen[e] =
        ofParts false (10 ^ e.val * 2 ^ 52 / 2 ^ (10 ^ e.val).log2) ((10 ^ e.val).log2 - 52) := by
  revert e
  decide

/-- The powers of ten in the table are exact. -/
theorem exactlyRepresentablePowersOfTen_eq {e : Nat}
    (he : e < Float.exactlyRepresentablePowersOfTen.size) :
    ∃ significand exponent, Canonical significand exponent ∧ 2 ^ 52 ≤ significand ∧
      (significand : ℚ) * 2 ^ exponent = 10 ^ e ∧
      Float.exactlyRepresentablePowersOfTen[e] = ofParts false significand exponent := by
  obtain ⟨hexact, hlt, hlead, hhigh, heq⟩ := exactlyRepresentablePowersOfTen_parts ⟨e, he⟩
  refine ⟨_, _, ⟨hlt, .inl hlead, by omega, by omega⟩, hlead, ?_, heq⟩
  rw [zpow_sub₀ two_ne_zero, zpow_natCast, mul_div_assoc', div_eq_iff (by positivity)]
  exact_mod_cast hexact

section Parts
variable {s₁ s₂ significand : Nat} {e₁ e₂ exponent : Int}

theorem unpacked_of_pos {s : Sign} {significand : Nat} (exponent : Int) (h : 0 < significand) :
    unpacked s significand exponent = .finite s significand exponent h := dif_pos h

theorem unpack_positive (hc : Canonical significand exponent) (hpos : 0 < significand) :
    (ofParts false significand exponent).toModel.unpack =
      .finite .positive significand exponent hpos :=
  (unpack_ofParts false hc).trans (unpacked_of_pos exponent hpos)

theorem mul_ofParts (h₁ : Canonical s₁ e₁) (h₂ : Canonical s₂ e₂) (hpos₁ : 0 < s₁)
    (hpos₂ : 0 < s₂) (hc : Canonical significand exponent)
    (hq : Stands significand exponent (s₁ * 2 ^ e₁ * (s₂ * 2 ^ e₂))) :
    ofParts false s₁ e₁ * ofParts false s₂ e₂ = ofParts false significand exponent := by
  change Float.ofModel (.pack (.mul .binary64 (ofParts false s₁ e₁).toModel.unpack
    (ofParts false s₂ e₂).toModel.unpack)) = _
  rw [unpack_positive h₁ hpos₁, unpack_positive h₂ hpos₂]
  have hlead : 2 ^ 52 ≤ s₁ * s₂ ∨ e₁ + e₂ ≤ -1074 := by
    rcases h₁.leading with hlead | rfl
    · exact .inl (hlead.trans (Nat.le_mul_of_pos_right _ hpos₂))
    · rcases h₂.leading with hlead | rfl
      · exact .inl (hlead.trans (Nat.le_mul_of_pos_left _ hpos₁))
      · exact .inr (by decide)
  exact congrArg (Float.ofModel ∘ .pack) (mul_eq hc hpos₁ hpos₂ hlead hq)

theorem div_ofParts (h₁ : Canonical s₁ e₁) (h₂ : Canonical s₂ e₂) (hpos₁ : 0 < s₁)
    (hpos₂ : 0 < s₂) (hc : Canonical significand exponent)
    (hq : Stands significand exponent (s₁ * 2 ^ e₁ / (s₂ * 2 ^ e₂))) :
    ofParts false s₁ e₁ / ofParts false s₂ e₂ = ofParts false significand exponent := by
  change Float.ofModel (.pack (.div .binary64 (ofParts false s₁ e₁).toModel.unpack
    (ofParts false s₂ e₂).toModel.unpack)) = _
  rw [unpack_positive h₁ hpos₁, unpack_positive h₂ hpos₂]
  exact congrArg (Float.ofModel ∘ .pack) (div_eq hc hpos₁ hpos₂ hq)

theorem toFloat_eq {n : Nat} (hlt : n < 2 ^ 53) (hpos : 0 < n)
    (hc : Canonical significand exponent) (hq : Stands significand exponent n) :
    n.toUInt64.toFloat = ofParts false significand exponent := by
  have hn : n.toUInt64.toNat = n := by
    change n % 2 ^ 64 = n
    omega
  change Float.ofModel (.pack (UnpackedFloat.ofNat .binary64 n.toUInt64.toNat)) = _
  rw [hn, ofNat_eq hc hpos hq]
  rfl

/-- Beyond the doubles that are exact, a number is read by natural numbers. -/
theorem model_ofScientific_eq (hc : Canonical significand exponent) {m : Nat} (hm : 0 < m)
    {e : Int} (hhigh : e ≤ 2048) (hlow : -(2048 + m.log2 : Int) ≤ e)
    (hq : Stands significand exponent (m * 10 ^ e)) :
    UnpackedFloat.ofScientific .binary64 m e = unpacked .positive significand exponent := by
  have hpow : (2 : Int) ^ Format.binary64.exponentBits = 2048 := rfl
  rw [UnpackedFloat.ofScientific, dif_neg hm.ne', hpow, if_neg (by omega), if_neg (by omega)]
  split
  · next he =>
    have hten : (10 : ℚ) ^ e = (10 ^ e.toNat : Nat) := by
      rw [Nat.cast_pow, ← zpow_natCast, Int.toNat_of_nonneg he]
      rfl
    have hpos : 0 < 10 ^ e.toNat := Nat.pow_pos (by decide)
    have hshift : m <<< Format.binary64.mantissaBits = m * 2 ^ 53 := Nat.shiftLeft_eq _ _
    have hbits : (2 : ℚ) ^ (-(Format.binary64.mantissaBits : Int)) = (2 ^ 53)⁻¹ := by
      rw [zpow_neg, zpow_natCast]
      rfl
    rw [hten] at hq
    apply mul_eq hc
    · left
      rw [hshift]
      calc 2 ^ 52 ≤ 1 * 2 ^ 53 * 1 := by norm_num
        _ ≤ m * 2 ^ 53 * 10 ^ e.toNat := Nat.mul_le_mul (Nat.mul_le_mul_right _ hm) hpos
    · rw [hshift, hbits, zpow_zero, mul_one, Nat.cast_mul, Nat.cast_pow 2, Nat.cast_ofNat,
        mul_inv_cancel_right₀ (by positivity)]
      exact hq
  · next he =>
    have hten : (10 : ℚ) ^ e = ((10 ^ (-e).toNat : Nat) : ℚ)⁻¹ := by
      rw [Nat.cast_pow, ← zpow_natCast, Int.toNat_of_nonneg (by omega), zpow_neg, inv_inv]
      rfl
    rw [hten] at hq
    apply div_eq hc
    rw [zpow_zero, mul_one, mul_one, div_eq_mul_inv]
    exact hq

/-- A decimal number is read as the double that it stands for. -/
theorem ofScientific_eq (hc : Canonical significand exponent) {m : Nat} (hm : 0 < m) {e : Int}
    (hhigh : e ≤ 2048) (hlow : -(2048 + m.log2 : Int) ≤ e)
    (hq : Stands significand exponent (m * 10 ^ e)) :
    Float.ofScientific m (decide (e < 0)) e.natAbs = ofParts false significand exponent := by
  have hsign : (e.natAbs : Int) = if e < 0 then -e else e := by split <;> omega
  rw [Float.ofScientific]
  split
  · next hfast =>
    obtain ⟨s₁, e₁, hc₁, hlead₁, hm₁⟩ := exists_canonical_nat hm hfast.1
    obtain ⟨s₂, e₂, hc₂, hlead₂, hm₂, htable⟩ :=
      exactlyRepresentablePowersOfTen_eq (Nat.lt_succ_iff.2 hfast.2)
    have hfloat := toFloat_eq hfast.1 hm hc₁ (hm₁ ▸ stands_self s₁ e₁)
    simp only [hfloat]
    by_cases he : e < 0
    · rw [if_pos (decide_eq_true he)]
      refine (congrArg (ofParts false s₁ e₁ / ·) htable).trans ?_
      apply div_ofParts hc₁ hc₂ (by omega) (by omega) hc
      rw [hm₁, hm₂, ← zpow_natCast, hsign, if_pos he, zpow_neg, div_inv_eq_mul]
      exact hq
    · rw [if_neg (by simpa using he)]
      refine (congrArg (ofParts false s₁ e₁ * ·) htable).trans ?_
      apply mul_ofParts hc₁ hc₂ (by omega) (by omega) hc
      rw [hm₁, hm₂, ← zpow_natCast, hsign, if_neg he]
      exact hq
  · have he : (if decide (e < 0) then Int.negOfNat e.natAbs else Int.ofNat e.natAbs) = e := by
      by_cases he : e < 0
      · rw [if_pos (decide_eq_true he), Int.negOfNat_eq, Int.ofNat_eq_natCast, hsign, if_pos he,
          neg_neg]
      · rw [if_neg (by simpa using he), Int.ofNat_eq_natCast, hsign, if_neg he]
    simp only [he]
    exact congrArg (Float.ofModel ∘ .pack) (model_ofScientific_eq hc hm hhigh hlow hq)

/-! ## The guards on the power of ten -/

/-- A number that stands for a positive double is within the range of doubles. -/
theorem Stands.range {q : ℚ} (hq : Stands significand exponent q)
    (hc : Canonical significand exponent) (hpos : 0 < significand) :
    2 ^ (-1075 : Int) ≤ q ∧ q < 2 ^ (1024 : Int) := by
  have hmono {a b : Int} (h : a ≤ b) : (2 : ℚ) ^ a ≤ 2 ^ b := zpow_le_zpow_right₀ one_le_two h
  have hhigh := hc.high
  refine ⟨?_, (hq.lt_pow hc).trans_le (hmono (by omega))⟩
  have hone : (1 : ℚ) ≤ significand := by exact_mod_cast hpos
  have hgap := gap_le significand exponent
  calc (2 : ℚ) ^ (-1075 : Int) ≤ 1 / 2 * 2 ^ exponent := by
        rw [one_div, ← zpow_neg_one, ← two_zpow_add]
        exact hmono (by have := hc.low; omega)
    _ ≤ (significand - gap significand exponent) * 2 ^ exponent :=
        mul_le_mul_of_nonneg_right (by linarith) (zpow_pos two_pos _).le
    _ ≤ q := hq.low

/-- The number of digits tells between which powers of ten a decimal number lies. -/
theorem pow_lead_le {units : Nat} (hpos : 0 < units) (scale : Int) :
    (10 : ℚ) ^ ((digits units).length + scale - 1) ≤ units * 10 ^ scale ∧
      units * 10 ^ scale < (10 : ℚ) ^ ((digits units).length + scale) := by
  have hten : (0 : ℚ) < 10 ^ scale := zpow_pos (by norm_num) _
  have hsplit (k : Int) : (10 : ℚ) ^ (k + scale) = 10 ^ k * 10 ^ scale :=
    zpow_add₀ (by norm_num) k scale
  have hlength : 1 ≤ (digits units).length := List.length_pos_of_ne_nil (digits_ne_nil _)
  have hlow : ((10 ^ ((digits units).length - 1) : Nat) : ℚ) ≤ units := by
    exact_mod_cast ten_pow_length_le hpos
  have hhigh : (units : ℚ) < ((10 ^ (digits units).length : Nat) : ℚ) := by
    exact_mod_cast lt_ten_pow_length units
  constructor
  · have hexp : ((digits units).length : Int) + scale - 1 =
        ((digits units).length - 1 : Nat) + scale := by omega
    rw [hexp, hsplit, zpow_natCast]
    push_cast at hlow
    exact mul_le_mul_of_nonneg_right hlow hten.le
  · rw [hsplit, zpow_natCast]
    push_cast at hhigh
    exact mul_lt_mul_of_pos_right hhigh hten

/-- A decimal number is read as the positive double that it stands for. -/
theorem nearestDouble_eq (hc : Canonical significand exponent) (hpos : 0 < significand)
    {units : Nat} {scale : Int} (hq : Stands significand exponent (units * 10 ^ scale)) :
    Numeral.nearestDouble units scale = ofParts false significand exponent := by
  obtain ⟨hmin, hmax⟩ := hq.range hc hpos
  have hunits : 0 < units := by
    rcases Nat.eq_zero_or_pos units with rfl | h
    · rw [Nat.cast_zero, zero_mul] at hmin
      exact absurd hmin (not_le.2 (zpow_pos two_pos _))
    · exact h
  obtain ⟨hlow, hhigh⟩ := pow_lead_le hunits scale
  have hmono {a b : Int} (h : a ≤ b) : (10 : ℚ) ^ a ≤ 10 ^ b :=
    zpow_le_zpow_right₀ (by norm_num) h
  -- Ten to the power 400 is out of range, by eight to the same power.
  have hpow : (2 : ℚ) ^ (1200 : Int) ≤ 10 ^ (400 : Int) := by
    rw [show (1200 : Int) = 3 * 400 from rfl, zpow_mul]
    exact zpow_le_zpow_left₀ (by decide) (by positivity) (by norm_num)
  have htwo {a b : Int} (h : (2 : ℚ) ^ a < 2 ^ b) : a < b :=
    (zpow_lt_zpow_iff_right₀ one_lt_two).1 h
  have hleadLow : ¬ ((digits units).length : Int) + scale < -400 := by
    intro h
    have hsmall : (10 : ℚ) ^ (-400 : Int) ≤ 2 ^ (-1200 : Int) := by
      rw [zpow_neg, zpow_neg]
      exact inv_anti₀ (zpow_pos two_pos _) hpow
    have := htwo (hmin.trans_lt (hhigh.trans_le ((hmono h.le).trans hsmall)))
    omega
  have hleadHigh : ¬ 400 < ((digits units).length : Int) + scale := by
    intro h
    have := htwo (hpow.trans_lt ((hmono (by omega)).trans_lt (hlow.trans_lt hmax)))
    omega
  have hlength : (digits units).length ≤ units.log2 + 1 := by
    have : 2 ^ ((digits units).length - 1) ≤ units :=
      (Nat.pow_le_pow_left (by decide) _).trans (ten_pow_length_le hunits)
    have := (Nat.le_log2 hunits.ne').2 this
    omega
  simp only [Numeral.nearestDouble]
  rw [if_neg (by omega), if_neg hleadHigh]
  exact ofScientific_eq hc hunits (by omega) (by omega) hq

end Parts

end MovingTarget.Decimal
