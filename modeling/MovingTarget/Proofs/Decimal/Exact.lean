import MovingTarget.Proofs.Comparisons
import MovingTarget.Proofs.Decimal.Nearest
/-!
# Doubles as the numbers that they are

A finite double is a rational number (`rational`), and finite doubles compare as these numbers do
(`le_iff_rational_le`). Every number that is not too large stands for some double
(`exists_stands`), so products in that range are finite, and counts are exact as far as a
significand reaches. Cutting off what follows the point is exact up to the largest word
(`whole_eq`).
-/
namespace MovingTarget.Decimal
open Float.Model Float.Model.UnpackedFloat

/-- The number that a double is, zero for what is no finite double. -/
def Double.rational : Double → ℚ
  | .finite negative significand exponent _ =>
    (if negative then -1 else 1) * (significand * 2 ^ exponent)
  | _ => 0

def rational (x : Float) : ℚ := (Double.ofFloat x).rational

theorem rational_ofParts (negative : Bool) {significand : Nat} {exponent : Int}
    (h : Canonical significand exponent) :
    rational (ofParts negative significand exponent) =
      (if negative then -1 else 1) * (significand * 2 ^ exponent) := by
  rw [rational, ofFloat_ofParts negative h]
  rfl

theorem parts_nonneg (significand : Nat) (exponent : Int) :
    (0 : ℚ) ≤ significand * 2 ^ exponent := by
  positivity

theorem rational_positive {significand : Nat} {exponent : Int}
    (h : Canonical significand exponent) :
    rational (ofParts false significand exponent) = significand * 2 ^ exponent := by
  rw [rational_ofParts false h, if_neg Bool.false_ne_true, one_mul]

/-- What is not finite is no number or infinite. -/
theorem isFinite_eq_false_iff {x : Float} : x.isFinite = false ↔ x.isNaN ∨ x.isInf := by
  change x.toModel.unpack.isFinite = false ↔
    x.toModel.unpack.isNaN = true ∨ x.toModel.unpack.isInf = true
  cases x.toModel.unpack <;> simp [UnpackedFloat.isFinite, UnpackedFloat.isNaN, UnpackedFloat.isInf]

theorem isNumber_iff {x : Float} : Scalar.isNumber x ↔ ¬ x.isNaN := by
  rw [Scalar.float_isNumber_iff]
  change _ ↔ ¬ x.toModel.unpack.isNaN = true
  rcases x.toModel.unpack with (_ | _) | _ | (_ | _) | ⟨(_ | _), m, e, h⟩ <;>
    simp [Scalar.place?, UnpackedFloat.isNaN]

/-! ## Order -/

section Order
variable {s₁ s₂ : Nat} {e₁ e₂ : Int}

/-- Of two canonical numbers the one with the lower exponent is the smaller one, and of two with
one exponent the one with the smaller significand. -/
theorem Canonical.lt (h₁ : Canonical s₁ e₁) (h₂ : Canonical s₂ e₂)
    (h : e₁ < e₂ ∨ e₁ = e₂ ∧ s₁ < s₂) : (s₁ : ℚ) * 2 ^ e₁ < s₂ * 2 ^ e₂ := by
  rcases h with hlt | ⟨rfl, hlt⟩
  · have hlead : 2 ^ 52 ≤ s₂ := h₂.leading.resolve_right (by have := h₁.low; omega)
    have hs₁ : (s₁ : ℚ) < 2 ^ 53 := by exact_mod_cast h₁.significand_lt
    have hs₂ : (2 : ℚ) ^ 52 ≤ s₂ := by exact_mod_cast hlead
    calc (s₁ : ℚ) * 2 ^ e₁ < 2 ^ 53 * 2 ^ e₁ := mul_lt_mul_of_pos_right hs₁ (zpow_pos two_pos _)
      _ = 2 ^ 52 * 2 ^ (e₁ + 1) := by rw [two_zpow_add, zpow_one]; ring
      _ ≤ 2 ^ 52 * 2 ^ e₂ := by
          apply mul_le_mul_of_nonneg_left _ (by positivity)
          exact zpow_le_zpow_right₀ one_le_two hlt
      _ ≤ s₂ * 2 ^ e₂ := mul_le_mul_of_nonneg_right hs₂ (zpow_pos two_pos _).le
  · exact mul_lt_mul_of_pos_right (by exact_mod_cast hlt) (zpow_pos two_pos _)

/-- What the place of a finite double among the others tells of the number that it is. -/
inductive Located : Int ×ₗ Int ×ₗ Int → ℚ → Prop
  | zero : Located (toLex (0, toLex (0, 0))) 0
  | positive {s : Nat} {e : Int} (hs : 0 < s) (hc : Canonical s e) :
    Located (toLex (1, toLex (e, (s : Int)))) (s * 2 ^ e)
  | negative {s : Nat} {e : Int} (hs : 0 < s) (hc : Canonical s e) :
    Located (toLex (-1, toLex (-e, -(s : Int)))) (-(s * 2 ^ e))

theorem exists_located {x : Float} (hx : x.isFinite) :
    ∃ a, Scalar.place? x.toModel.unpack = some a ∧ Located a (rational x) := by
  obtain ⟨negative, significand, exponent, hc, rfl⟩ := isFinite_iff.1 hx
  rw [unpack_ofParts negative hc, rational_ofParts negative hc]
  rcases Nat.eq_zero_or_pos significand with rfl | hpos
  · rw [Nat.cast_zero, zero_mul, mul_zero]
    exact ⟨_, rfl, .zero⟩
  · rw [unpacked_of_pos _ hpos]
    cases negative with
    | false => exact ⟨_, rfl, by simpa using Located.positive hpos hc⟩
    | true => exact ⟨_, rfl, by simpa using Located.negative hpos hc⟩

theorem Located.lt {a b : Int ×ₗ Int ×ₗ Int} {q r : ℚ} (hq : Located a q) (hr : Located b r)
    (hab : a < b) : q < r := by
  have hpos {s : Nat} (hs : 0 < s) (e : Int) : (0 : ℚ) < s * 2 ^ e :=
    mul_pos (by exact_mod_cast hs) (zpow_pos two_pos _)
  simp only [Prod.Lex.lt_iff] at hab
  cases hq with
  | zero =>
    cases hr with
    | zero => simp at hab
    | positive hs hc => exact hpos hs _
    | negative hs hc => simp at hab
  | positive hs hc =>
    cases hr with
    | zero => simp at hab
    | positive hs' hc' => exact hc.lt hc' (by simpa using hab)
    | negative hs' hc' => simp at hab
  | negative hs hc =>
    cases hr with
    | zero => exact neg_neg_of_pos (hpos hs _)
    | positive hs' hc' => exact (neg_neg_of_pos (hpos hs _)).trans (hpos hs' _)
    | negative hs' hc' =>
      refine neg_lt_neg (hc'.lt hc ?_)
      simpa [eq_comm] using hab

theorem Located.eq {a b : Int ×ₗ Int ×ₗ Int} {q r : ℚ} (hq : Located a q) (hr : Located b r)
    (hab : a = b) : q = r := by
  cases hq <;> cases hr <;> simp_all

/-- Finite doubles compare as the numbers that they are. -/
theorem le_iff_rational_le {x y : Float} (hx : x.isFinite) (hy : y.isFinite) :
    x ≤ y ↔ rational x ≤ rational y := by
  obtain ⟨a, ha, hax⟩ := exists_located hx
  obtain ⟨b, hb, hby⟩ := exists_located hy
  have hplace : x ≤ y ↔ a ≤ b := by rw [Scalar.float_le_iff, ha, hb]; simp
  rw [hplace]
  constructor
  · intro hab
    rcases hab.eq_or_lt with rfl | hlt
    · exact (hax.eq hby rfl).le
    · exact (hax.lt hby hlt).le
  · intro hle
    by_contra hnot
    exact (hby.lt hax (not_le.1 hnot)).not_ge hle

end Order

/-! ## Cutting off what follows the point -/

theorem roundToInt_eq (s : Sign) (mantissa : Nat) (exponent : Int) :
    roundToInt s mantissa exponent = s.apply ⌊(mantissa * 2 ^ exponent : ℚ)⌋₊ := by
  -- The exponent is first brought down to zero, which loses nothing.
  have hle : exponent - exponent.toNat ≤ 0 := by omega
  obtain ⟨em, hshift, hdesc⟩ := shiftToExponent_eq hle .exact
    (describes_exact (mantissa <<< exponent.toNat))
  have hz : ((mantissa <<< exponent.toNat : Nat) : ℚ) * 2 ^ (exponent - exponent.toNat) /
      2 ^ (0 : Int) = mantissa * 2 ^ exponent := by
    rw [Nat.shiftLeft_eq, zpow_sub₀ two_ne_zero, zpow_zero, div_one, zpow_natCast]
    push_cast
    field_simp
  rw [hz] at hdesc
  have hfloor : ⌊(mantissa * 2 ^ exponent : ℚ)⌋₊ = em.mantissa :=
    (Nat.floor_eq_iff (parts_nonneg _ _)).2 hdesc.mantissa_le
  simp only [roundToInt, decreaseExponent, Int.sub_zero, hshift, hfloor]

theorem toNat_ofNatClamp (n : Nat) : (UInt64.ofNatClamp n).toNat = min n (2 ^ 64 - 1) := by
  rw [UInt64.ofNatClamp]
  split
  · next h => exact (Nat.min_eq_left (Nat.le_sub_one_of_lt h)).symm
  · next h => exact (Nat.min_eq_right ((Nat.sub_le _ _).trans (Nat.not_lt.1 h))).symm

/-- The whole part of a finite double, at most the largest word. -/
theorem whole_eq {x : Float} (hx : x.isFinite) :
    Scalar.whole x = min ⌊rational x⌋₊ (2 ^ 64 - 1) := by
  obtain ⟨negative, significand, exponent, hc, rfl⟩ := isFinite_iff.1 hx
  change (UInt64.ofNatClamp (UnpackedFloat.toInt _ _
    (ofParts negative significand exponent).toModel.unpack).toNat).toNat = _
  rw [toNat_ofNatClamp, unpack_ofParts negative hc, rational_ofParts negative hc]
  congr 1
  rcases Nat.eq_zero_or_pos significand with rfl | hpos
  · simp [unpacked, UnpackedFloat.toInt]
  · rw [unpacked_of_pos _ hpos, UnpackedFloat.toInt, roundToInt_eq]
    cases negative with
    | false => simp [sign, Sign.apply]
    | true =>
      rw [if_pos rfl, neg_one_mul, Nat.floor_of_nonpos (neg_nonpos.2 (parts_nonneg _ _))]
      simp [sign, Sign.apply]

/-! ## The doubles that numbers stand for -/

/-- Every number that is not negative rounds to a natural number. -/
theorem exists_around {z : ℚ} (hz : 0 ≤ z) : ∃ n, Around n z := by
  have hlow := Nat.floor_le hz
  have hhigh := Nat.lt_floor_add_one z
  generalize ⌊z⌋₊ = k at hlow hhigh
  rcases lt_trichotomy z (k + 1 / 2) with hlt | rfl | hgt
  · exact ⟨k, by linarith, hlt.le, fun _ => ⟨by linarith, hlt⟩⟩
  · rcases Nat.mod_two_eq_zero_or_one k with heven | hodd
    · exact ⟨k, by linarith, le_rfl, fun h => by omega⟩
    · exact ⟨k + 1, by push_cast; linarith, by push_cast; linarith, fun h => by omega⟩
  · refine ⟨k + 1, ?_, ?_, fun _ => ⟨?_, ?_⟩⟩ <;> push_cast <;> linarith

/-- The exponent that a number in the range of doubles is rounded at. -/
theorem exists_binade {q : ℚ} (hlt : q < 2 ^ (1023 : Int)) :
    ∃ t : Int, -1074 ≤ t ∧ t ≤ 970 ∧ q < 2 ^ (t + 53) ∧ (t = -1074 ∨ 2 ^ (t + 52) ≤ q) := by
  rcases lt_or_ge q (2 ^ (-1021 : Int)) with hsmall | hlarge
  · exact ⟨-1074, le_rfl, by decide, hsmall, .inl rfl⟩
  · have hpos : 0 < q := (zpow_pos two_pos _).trans_le hlarge
    have hlow := Int.zpow_log_le_self one_lt_two hpos
    have hhigh := Int.lt_zpow_succ_log_self one_lt_two q
    push_cast at hlow hhigh
    have hmono {a b : Int} (h : (2 : ℚ) ^ a < 2 ^ b) : a < b :=
      (zpow_lt_zpow_iff_right₀ one_lt_two).1 h
    have hmin := hmono (hlarge.trans_lt hhigh)
    have hmax := hmono (hlow.trans_lt hlt)
    refine ⟨Int.log 2 q - 52, by omega, by omega, ?_, .inr ?_⟩
    · rwa [show Int.log 2 q - 52 + 53 = Int.log 2 q + 1 by omega]
    · rwa [show Int.log 2 q - 52 + 52 = Int.log 2 q by omega]

theorem Around.stands {n : Nat} {t : Int} {z : ℚ} (h : Around n z)
    (hnarrow : n = 2 ^ 52 → t ≠ -1074 → (n : ℚ) ≤ z) : Stands n t (z * 2 ^ t) := by
  have hpow : (0 : ℚ) < 2 ^ t := zpow_pos two_pos _
  have hlow : n - gap n t ≤ z := by
    unfold gap
    split
    · next hn =>
      have := hnarrow hn.1 hn.2
      linarith
    · exact h.low
  refine ⟨mul_le_mul_of_nonneg_right hlow hpow.le, mul_le_mul_of_nonneg_right h.high hpow.le,
    fun hodd => ?_⟩
  have hgap : gap n t = 1 / 2 := if_neg fun hn => by rw [hn.1] at hodd; cases hodd
  rw [hgap]
  exact ⟨mul_lt_mul_of_pos_right (h.odd hodd).1 hpow, mul_lt_mul_of_pos_right (h.odd hodd).2 hpow⟩

/-- What rounds up to one bit more stands for the power of two. -/
theorem Around.stands_overflow {t : Int} {z : ℚ} (h : Around (2 ^ 53) z) (ht : -1074 ≤ t)
    (hz : z < 2 ^ 53) : Stands (2 ^ 52) (t + 1) (z * 2 ^ t) := by
  have hpow : (0 : ℚ) < 2 ^ t := zpow_pos two_pos _
  have hlow := h.low
  push_cast at hlow
  refine ⟨?_, ?_, fun hodd => absurd hodd (by decide)⟩
  · rw [gap, if_pos ⟨rfl, by omega⟩, two_zpow_add, zpow_one, mul_comm (2 ^ t), ← mul_assoc]
    apply mul_le_mul_of_nonneg_right _ hpow.le
    push_cast
    linarith
  · rw [two_zpow_add, zpow_one, mul_comm (2 ^ t), ← mul_assoc]
    apply mul_le_mul_of_nonneg_right _ hpow.le
    push_cast
    linarith

/-- Every number in the range of doubles stands for one. -/
theorem exists_stands {q : ℚ} (hq : 0 ≤ q) (hlt : q < 2 ^ (1023 : Int)) :
    ∃ significand exponent, Canonical significand exponent ∧ Stands significand exponent q := by
  obtain ⟨t, hmin, hmax, hhigh, hlow⟩ := exists_binade hlt
  have hpow : (0 : ℚ) < 2 ^ t := zpow_pos two_pos _
  obtain ⟨n, hn⟩ := exists_around (div_nonneg hq hpow.le)
  have hhigh : q / 2 ^ t < 2 ^ 53 := by
    rw [div_lt_iff₀ hpow, mul_comm, ← zpow_natCast, ← two_zpow_add]
    exact hhigh
  have hlow : t = -1074 ∨ (2 : ℚ) ^ 52 ≤ q / 2 ^ t := by
    rw [le_div_iff₀ hpow, mul_comm, ← zpow_natCast, ← two_zpow_add]
    exact hlow
  rw [← div_mul_cancel₀ q hpow.ne']
  generalize q / 2 ^ t = z at hn hlow hhigh
  have hbelow {a b : Nat} (h : (a : ℚ) < b + 1) : a ≤ b := Nat.lt_succ_iff.1 (by exact_mod_cast h)
  have hle : n ≤ 2 ^ 53 := hbelow (by have := hn.low; push_cast; linarith)
  have hge : t = -1074 ∨ 2 ^ 52 ≤ n :=
    hlow.imp_right fun h => hbelow (by have := hn.high; push_cast; linarith)
  rcases hle.eq_or_lt with rfl | hn'
  · exact ⟨2 ^ 52, t + 1, ⟨by decide, .inl le_rfl, by omega, by omega⟩,
      hn.stands_overflow hmin hhigh⟩
  · refine ⟨n, t, ⟨hn', hge.symm, hmin, by omega⟩, hn.stands fun heq ht => ?_⟩
    rw [heq]
    exact_mod_cast hlow.resolve_left ht

/-! ## Counts -/

/-- A number from one on stands for a double whose significand has its leading bit. -/
theorem Stands.leading {significand : Nat} {exponent : Int} {q : ℚ}
    (hq : Stands significand exponent q) (hc : Canonical significand exponent) (h : 1 ≤ q) :
    2 ^ 52 ≤ significand := by
  refine hc.leading.resolve_right fun hexp => ?_
  have hlt := hq.lt_pow hc
  have hone : (2 : ℚ) ^ (exponent + 53) ≤ 1 := zpow_le_one_of_nonpos₀ one_le_two (by omega)
  linarith

/-- A count is read as the double that it stands for. -/
theorem ofNat_eq_ofParts {n significand : Nat} {exponent : Int} (hpos : 0 < n)
    (hc : Canonical significand exponent) (hq : Stands significand exponent n) :
    Float.ofNat n = ofParts false significand exponent := by
  refine ofScientific_eq hc hpos (e := 0) (by decide) (by omega) ?_
  rwa [zpow_zero, mul_one]

theorem rational_ofNat_zero : (Float.ofNat 0).isFinite ∧ rational (Float.ofNat 0) = 0 := by
  decide +kernel

/-- Counts are exact as far as a significand reaches. -/
theorem rational_ofNat {n : Nat} (hn : n ≤ 2 ^ 53) :
    (Float.ofNat n).isFinite ∧ rational (Float.ofNat n) = n := by
  rcases Nat.eq_zero_or_pos n with rfl | hpos
  · exact_mod_cast rational_ofNat_zero
  obtain ⟨significand, exponent, hc, heq⟩ : ∃ significand exponent,
      Canonical significand exponent ∧ (significand : ℚ) * 2 ^ exponent = n := by
    rcases hn.eq_or_lt with rfl | hlt
    · exact ⟨2 ^ 52, 1, ⟨by decide, .inl le_rfl, by decide, by decide⟩, by norm_num⟩
    · obtain ⟨significand, exponent, hc, -, heq⟩ := exists_canonical_nat hpos hlt
      exact ⟨significand, exponent, hc, heq⟩
  rw [ofNat_eq_ofParts hpos hc (heq ▸ stands_self significand exponent), rational_positive hc]
  exact ⟨isFinite_ofParts false hc, heq⟩

theorem Stands.le_two_mul {significand : Nat} {exponent : Int} {q : ℚ}
    (hq : Stands significand exponent q) (hpos : 0 < significand) :
    significand * 2 ^ exponent ≤ 2 * q := by
  have hone : (1 : ℚ) ≤ significand := by exact_mod_cast hpos
  have hgap := gap_le significand exponent
  have hhalf : (significand : ℚ) / 2 * 2 ^ exponent ≤
      (significand - gap significand exponent) * 2 ^ exponent :=
    mul_le_mul_of_nonneg_right (by linarith) (zpow_pos two_pos _).le
  have hlow := hq.low
  linarith

/-- A larger count is rounded, which does not double it. -/
theorem rational_ofNat_le {n : Nat} (hn : (n : ℚ) < 2 ^ (1023 : Int)) :
    (Float.ofNat n).isFinite ∧ 0 ≤ rational (Float.ofNat n) ∧ rational (Float.ofNat n) ≤ 2 * n := by
  rcases Nat.eq_zero_or_pos n with rfl | hpos
  · rw [rational_ofNat_zero.2]
    exact ⟨rational_ofNat_zero.1, le_rfl, by simp⟩
  · obtain ⟨significand, exponent, hc, hq⟩ := exists_stands n.cast_nonneg hn
    have hlead := hq.leading hc (by exact_mod_cast hpos)
    rw [ofNat_eq_ofParts hpos hc hq, rational_positive hc]
    exact ⟨isFinite_ofParts false hc, parts_nonneg significand exponent, hq.le_two_mul (by omega)⟩

/-! ## Products -/

/-- A double that is not below zero has no sign, unless it is zero. -/
theorem exists_parts_of_nonneg {x : Float} (hx : x.isFinite) (h0 : 0 ≤ rational x) :
    ∃ negative significand exponent, Canonical significand exponent ∧
      x = ofParts negative significand exponent ∧ (significand = 0 ∨ negative = false) := by
  obtain ⟨negative, significand, exponent, hc, rfl⟩ := isFinite_iff.1 hx
  refine ⟨negative, significand, exponent, hc, rfl, ?_⟩
  cases negative with
  | false => exact .inr rfl
  | true =>
    rw [rational_ofParts true hc, if_pos rfl, neg_one_mul, neg_nonneg] at h0
    left
    by_contra hne
    have hpos : (0 : ℚ) < significand := by exact_mod_cast Nat.pos_of_ne_zero hne
    exact (mul_pos hpos (zpow_pos two_pos _)).not_ge h0

theorem mul_ofParts_zero (n₁ n₂ : Bool) {s₁ s₂ : Nat} {e₁ e₂ : Int} (h₁ : Canonical s₁ e₁)
    (h₂ : Canonical s₂ e₂) (h : s₁ = 0 ∨ s₂ = 0) :
    ∃ negative, ofParts n₁ s₁ e₁ * ofParts n₂ s₂ e₂ = ofParts negative 0 (-1074) := by
  have hmul : UnpackedFloat.mul .binary64 (unpacked (sign n₁) s₁ e₁) (unpacked (sign n₂) s₂ e₂) =
      .zero (sign n₁ * sign n₂) := by
    unfold unpacked
    split <;> split
    · omega
    all_goals rfl
  have hsign : sign n₁ * sign n₂ = sign (n₁ != n₂) := by cases n₁ <;> cases n₂ <;> rfl
  refine ⟨n₁ != n₂, ?_⟩
  change Float.ofModel (.pack (.mul .binary64 (ofParts n₁ s₁ e₁).toModel.unpack
    (ofParts n₂ s₂ e₂).toModel.unpack)) = _
  rw [unpack_ofParts n₁ h₁, unpack_ofParts n₂ h₂, hmul, hsign]
  rfl

/-- A product of doubles that are not below zero is no less, and finite unless it is too large. -/
theorem isFinite_mul {x y : Float} (hx : x.isFinite) (hy : y.isFinite) (hx0 : 0 ≤ rational x)
    (hy0 : 0 ≤ rational y) (hxy : rational x * rational y < 2 ^ (1023 : Int)) :
    (x * y).isFinite ∧ 0 ≤ rational (x * y) := by
  obtain ⟨n₁, s₁, e₁, h₁, rfl, hn₁⟩ := exists_parts_of_nonneg hx hx0
  obtain ⟨n₂, s₂, e₂, h₂, rfl, hn₂⟩ := exists_parts_of_nonneg hy hy0
  by_cases hzero : s₁ = 0 ∨ s₂ = 0
  · have hc : Canonical 0 (-1074) := ⟨by decide, .inr rfl, le_rfl, by decide⟩
    obtain ⟨negative, hmul⟩ := mul_ofParts_zero n₁ n₂ h₁ h₂ hzero
    rw [hmul, rational_ofParts negative hc]
    exact ⟨isFinite_ofParts negative hc, by simp⟩
  · push Not at hzero
    obtain rfl := hn₁.resolve_left hzero.1
    obtain rfl := hn₂.resolve_left hzero.2
    rw [rational_positive h₁, rational_positive h₂] at hxy
    obtain ⟨significand, exponent, hc, hq⟩ :=
      exists_stands (mul_nonneg (parts_nonneg s₁ e₁) (parts_nonneg s₂ e₂)) hxy
    rw [mul_ofParts h₁ h₂ (Nat.pos_of_ne_zero hzero.1) (Nat.pos_of_ne_zero hzero.2) hc hq,
      rational_positive hc]
    exact ⟨isFinite_ofParts false hc, parts_nonneg significand exponent⟩

/-! ## The unit interval -/

theorem isFinite_ends : (0.0 : Float).isFinite ∧ rational 0.0 = 0 ∧ (1.0 : Float).isFinite ∧
    rational 1.0 = 1 := by
  decide +kernel

theorem unit_mem (x : Float) : (Scalar.unit x).isFinite ∧ 0 ≤ rational (Scalar.unit x) ∧
    rational (Scalar.unit x) ≤ 1 := by
  obtain ⟨hzero, hzero', hone, hone'⟩ := isFinite_ends
  have h := Scalar.comparable_float
  have hmem : (0.0 : Float) ≤ Scalar.unit x ∧ Scalar.unit x ≤ 1.0 := by
    unfold Scalar.unit
    split
    · next hx =>
      split
      · decide +kernel
      · next hlow =>
        split
        · decide +kernel
        · next hhigh =>
          exact ⟨h.le_of_not_lt hx (by decide +kernel) hlow,
            h.le_of_not_lt (by decide +kernel) hx hhigh⟩
    · decide +kernel
  have hfinite := Scalar.isFinite_of_le_of_le hzero hone hmem.1 hmem.2
  rw [le_iff_rational_le hzero hfinite, le_iff_rational_le hfinite hone, hzero', hone'] at hmem
  exact ⟨hfinite, hmem⟩

end MovingTarget.Decimal
