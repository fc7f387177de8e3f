import MovingTarget.Proofs.Decimal.Nearest
/-!
# The shortest digits stand for their double

The search for digits stops at digits that stand for the number (`shortest_holds`): seventeen always
do, since a grid of that many digits is finer than the rounding interval of every double.
-/
namespace MovingTarget.Decimal

theorem tenPow_eq (n : Nat) : tenPow n = 10 ^ n := rfl

theorem cast_tenPow (n : Nat) : ((tenPow n : Nat) : ℚ) = 10 ^ n := Nat.cast_pow 10 n

/-- A power with a truncated exponent, by the power with the exponent itself. -/
theorem pow_toNat {b : ℚ} (hb : b ≠ 0) (k : Int) : b ^ k.toNat = b ^ k * b ^ (-k).toNat := by
  rw [← zpow_natCast, ← zpow_natCast, ← zpow_add₀ hb]
  congr 1
  omega

/-! ## The first digit -/

theorem leadingZeros_spec (num den fuel : Nat) :
    den ≤ num * 10 ^ (leadingZeros num den fuel + 1) ∨ leadingZeros num den fuel = fuel := by
  induction fuel generalizing num with
  | zero => exact .inr rfl
  | succ fuel ih =>
    rw [leadingZeros]
    split
    · next h => exact .inl (by simpa using h)
    · rcases ih (num * 10) with h | h
      · refine .inl ?_
        rwa [Nat.pow_succ', ← Nat.mul_assoc]
      · exact .inr (by rw [h])

/-- The power of ten of the first digit is not above the number. -/
theorem pow_leadingExponent_le {num den : Nat} (hden : 0 < den)
    (hmin : den ≤ num * 10 ^ (324 + 1)) : (10 : ℚ) ^ leadingExponent num den ≤ num / den := by
  have hden' : (0 : ℚ) < den := by exact_mod_cast hden
  rw [leadingExponent, le_div_iff₀ hden']
  split
  · next hge =>
    have hlow := ten_pow_length_le (Nat.div_pos hge hden)
    have hlength : 1 ≤ (digits (num / den)).length :=
      List.length_pos_of_ne_nil (digits_ne_nil _)
    have hexp : ((digits (num / den)).length : Int) - 1 =
        ((digits (num / den)).length - 1 : Nat) := by omega
    have hmul : 10 ^ ((digits (num / den)).length - 1) * den ≤ num :=
      (Nat.mul_le_mul_right den hlow).trans (Nat.div_mul_le_self num den)
    rw [hexp, zpow_natCast]
    exact_mod_cast hmul
  · have hmul : den ≤ num * 10 ^ (leadingZeros num den 324 + 1) := by
      rcases leadingZeros_spec num den 324 with h | h
      · exact h
      · rw [h]
        exact hmin
    have hexp : -(leadingZeros num den 324 : Int) - 1 =
        -((leadingZeros num den 324 + 1 : Nat) : Int) := by omega
    rw [hexp, zpow_neg, zpow_natCast, inv_mul_le_iff₀ (by positivity), mul_comm]
    exact_mod_cast hmul

/-! ## Digits that stand for a number -/

namespace Magnitude

/-- The numbers that stand for this one. -/
structure Holds (v : Magnitude) (q : ℚ) : Prop where
  low : v.low ≤ q * v.den
  high : q * v.den ≤ v.high
  inside : v.closed = false → v.low < q * v.den ∧ q * v.den < v.high

theorem admits_iff (v : Magnitude) (d : Nat) : v.admits d ↔ v.Holds d := by
  have hlow : (v.low : ℚ) ≤ d * v.den ↔ v.low ≤ d * v.den := by exact_mod_cast Iff.rfl
  have hhigh : (d * v.den : ℚ) ≤ v.high ↔ d * v.den ≤ v.high := by exact_mod_cast Iff.rfl
  have hlow' : (v.low : ℚ) < d * v.den ↔ v.low < d * v.den := by exact_mod_cast Iff.rfl
  have hhigh' : (d * v.den : ℚ) < v.high ↔ d * v.den < v.high := by exact_mod_cast Iff.rfl
  unfold admits
  split
  · next hclosed =>
    rw [Bool.and_eq_true, decide_eq_true_iff, decide_eq_true_iff, ← hlow, ← hhigh]
    exact ⟨fun h => ⟨h.1, h.2, fun ho => absurd (hclosed.symm.trans ho) (by decide)⟩,
      fun h => ⟨h.low, h.high⟩⟩
  · next hopen =>
    rw [Bool.and_eq_true, decide_eq_true_iff, decide_eq_true_iff, ← hlow', ← hhigh']
    exact ⟨fun h => ⟨h.1.le, h.2.le, fun _ => h⟩, fun h => h.inside (Bool.not_eq_true _ ▸ hopen)⟩

/-- The same number over another denominator. -/
theorem holds_scaled_iff {v w : Magnitude} {c q r : ℚ} (hc : 0 < c) (hlow : (w.low : ℚ) = v.low * c)
    (hhigh : (w.high : ℚ) = v.high * c) (hq : r * w.den = q * v.den * c)
    (hclosed : w.closed = v.closed) : w.Holds r ↔ v.Holds q := by
  have hle (a b : ℚ) : a * c ≤ b * c ↔ a ≤ b := mul_le_mul_iff_left₀ hc
  have hlt (a b : ℚ) : a * c < b * c ↔ a < b := mul_lt_mul_iff_left₀ hc
  constructor
  · rintro ⟨h₁, h₂, h₃⟩
    rw [hlow, hq, hle] at h₁
    rw [hhigh, hq, hle] at h₂
    rw [hlow, hhigh, hq, hlt, hlt, hclosed] at h₃
    exact ⟨h₁, h₂, h₃⟩
  · rintro ⟨h₁, h₂, h₃⟩
    rw [← hle, ← hlow, ← hq] at h₁
    rw [← hle, ← hhigh, ← hq] at h₂
    rw [← hlt, ← hlt _ (v.high : ℚ), ← hlow, ← hhigh, ← hq, ← hclosed] at h₃
    exact ⟨h₁, h₂, h₃⟩

theorem holds_inUnits_iff (v : Magnitude) (exponent : Int) (q : ℚ) :
    (v.inUnits exponent).Holds q ↔ v.Holds (q * 10 ^ exponent) := by
  have hup : (0 : ℚ) < 10 ^ (-exponent).toNat := by positivity
  refine holds_scaled_iff hup ?_ ?_ ?_ rfl
  · simp only [Magnitude.inUnits, Nat.cast_mul, cast_tenPow]
  · simp only [Magnitude.inUnits, Nat.cast_mul, cast_tenPow]
  · simp only [Magnitude.inUnits, Nat.cast_mul, cast_tenPow,
      pow_toNat (b := 10) (by norm_num) exponent]
    ring

/-- The rounding interval reaches up at least as far as down, and on seventeen digits a step is
less than twice as long as it reaches down. -/
structure Fine (v : Magnitude) : Prop where
  den_pos : 0 < v.den
  low_lt : v.low < v.num
  high_ge : 2 * v.num ≤ v.low + v.high
  fine : v.num < 2 * 10 ^ 16 * (v.num - v.low)

theorem Fine.inUnits {v : Magnitude} (h : v.Fine) (exponent : Int) : (v.inUnits exponent).Fine := by
  have hup : 0 < tenPow (-exponent).toNat := Nat.pow_pos (by decide)
  refine ⟨Nat.mul_pos h.den_pos (Nat.pow_pos (by decide)), Nat.mul_lt_mul_of_pos_right h.low_lt hup,
    ?_, ?_⟩
  · have := Nat.mul_le_mul_right (tenPow (-exponent).toNat) h.high_ge
    simp only [Magnitude.inUnits]
    rwa [Nat.add_mul, Nat.mul_assoc] at this
  · have := Nat.mul_lt_mul_of_pos_right h.fine hup
    simp only [Magnitude.inUnits]
    rwa [Nat.mul_assoc (2 * 10 ^ 16), Nat.sub_mul] at this

/-- One of the two neighbours on a grid of seventeen digits stands for the number. -/
theorem Fine.admits_neighbour {v : Magnitude} (h : v.Fine) (hlead : 10 ^ 16 * v.den ≤ v.num) :
    v.admits (v.num / v.den) ∨ v.admits (v.num / v.den + 1) := by
  obtain ⟨hden, hlow, hhigh, hfine⟩ := h
  have hd : v.num / v.den * v.den ≤ v.num := Nat.div_mul_le_self _ _
  have hd' : v.num < v.num / v.den * v.den + v.den := Nat.lt_div_mul_add hden
  have hstep : (v.num / v.den + 1) * v.den = v.num / v.den * v.den + v.den := Nat.succ_mul _ _
  have hinside {d : Nat} (h₁ : v.low < d * v.den) (h₂ : d * v.den < v.high) : v.admits d := by
    unfold admits
    split <;> simp [h₁, h₂, h₁.le, h₂.le]
  -- The nearer neighbour is at most half a step away.
  rcases le_total (2 * (v.num - v.num / v.den * v.den)) v.den with hnear | hfar
  · exact .inl (hinside (by omega) (by omega))
  · exact .inr (hinside (by omega) (by omega))

/-- A whole number that is found stands for the number. -/
theorem admits_of_nearestWhole? {v : Magnitude} {tie : Tie} {d : Nat}
    (h : v.nearestWhole? tie = some d) : v.admits d := by
  simp only [nearestWhole?] at h
  split at h
  · next hd hd' =>
    split at h <;> cases h
    · exact hd
    · exact hd'
    · split
      · exact hd
      · exact hd'
    · exact hd'
  · next hd _ =>
    cases h
    exact hd
  · next hd =>
    cases h
    exact hd
  · cases h

theorem isSome_nearestWhole? {v : Magnitude} (tie : Tie)
    (h : v.admits (v.num / v.den) ∨ v.admits (v.num / v.den + 1)) :
    (v.nearestWhole? tie).isSome := by
  simp only [nearestWhole?]
  split
  · split <;> rfl
  · rfl
  · rfl
  · next hd hd' => simp [hd, hd'] at h

end Magnitude

/-! ## The search -/

/-- The number that digits and an exponent name. -/
def Scaled.value (s : Scaled) : ℚ := s.digits * 10 ^ s.exponent

theorem Scaled.value_trim (s : Scaled) (fuel : Nat) : (s.trim fuel).value = s.value := by
  induction fuel generalizing s with
  | zero => rfl
  | succ fuel ih =>
    rw [trim]
    split
    · next h =>
      have hdigits : (s.digits : ℚ) = 10 * (s.digits / 10 : Nat) := by
        exact_mod_cast (Nat.mul_div_cancel' (Nat.dvd_of_mod_eq_zero h.2)).symm
      rw [ih, value, value, hdigits, zpow_add_one₀ (by norm_num)]
      ring
    · rfl

/-- In units of the seventeenth digit the number has seventeen digits before the point. -/
theorem Magnitude.inUnits_lead {v : Magnitude} (hden : 0 < v.den)
    (hmin : v.den ≤ v.num * 10 ^ (324 + 1)) :
    10 ^ 16 * (v.inUnits (leadingExponent v.num v.den - (16 : Nat))).den ≤
      (v.inUnits (leadingExponent v.num v.den - (16 : Nat))).num := by
  have hlead := pow_leadingExponent_le hden hmin
  rw [le_div_iff₀ (by exact_mod_cast hden)] at hlead
  generalize leadingExponent v.num v.den = lead at hlead ⊢
  have hsplit : (10 : ℚ) ^ lead = 10 ^ (lead - (16 : Nat)) * 10 ^ 16 := by
    rw [← zpow_natCast, ← zpow_add₀ (by norm_num)]
    congr 1
    omega
  have hcast : ((10 ^ 16 * (v.inUnits (lead - (16 : Nat))).den : Nat) : ℚ) ≤
      (v.inUnits (lead - (16 : Nat))).num := by
    simp only [Magnitude.inUnits, Nat.cast_mul, cast_tenPow]
    rw [pow_toNat (b := 10) (by norm_num) (lead - (16 : Nat))]
    calc ((10 ^ 16 : Nat) : ℚ) *
          (v.den * (10 ^ (lead - (16 : Nat)) * 10 ^ (-(lead - (16 : Nat))).toNat))
        = 10 ^ lead * v.den * 10 ^ (-(lead - (16 : Nat))).toNat := by
          rw [hsplit]
          push_cast
          ring
      _ ≤ v.num * 10 ^ (-(lead - (16 : Nat))).toNat :=
          mul_le_mul_of_nonneg_right hlead (by positivity)
  exact_mod_cast hcast

/-- The digits that are found stand for the number. -/
theorem Magnitude.shortest_holds {v : Magnitude} (hv : v.Fine)
    (hmin : v.den ≤ v.num * 10 ^ (324 + 1)) (tie : Tie) : v.Holds (v.shortest tie).value := by
  have hnum : v.num ≠ 0 := by have := hv.low_lt; omega
  rw [shortest, if_neg hnum]
  simp only [Scaled.value_trim]
  generalize hfind : List.findSome? _ (List.range 17) = found
  cases found with
  | some s =>
    obtain ⟨n, -, hn⟩ := List.exists_of_findSome?_eq_some hfind
    obtain ⟨d, hd, rfl⟩ := Option.map_eq_some_iff.1 hn
    exact (holds_inUnits_iff _ _ _).1 ((admits_iff _ _).1 (admits_of_nearestWhole? hd))
  | none =>
    -- On the grid of seventeen digits one is found.
    have hlast := List.findSome?_eq_none_iff.1 hfind 16 (by simp)
    rw [Option.map_eq_none_iff] at hlast
    have hsome := isSome_nearestWhole? tie
      ((hv.inUnits _).admits_neighbour (inUnits_lead hv.den_pos hmin))
    rw [hlast] at hsome
    cases hsome

/-! ## Doubles -/

section Doubles
variable {significand : Nat} {exponent : Int}

/-- The exact value of a double with its rounding interval. -/
def magnitude (significand : Nat) (exponent : Int) : Magnitude :=
  .ofBinary significand exponent (significand == 2 ^ 52 && exponent != -1074)

/-- How far down the rounding interval reaches, in quarters. -/
theorem quarters_eq (significand : Nat) (exponent : Int) :
    ((if significand == 2 ^ 52 && exponent != -1074 then 1 else 2 : Nat) : ℚ) =
      4 * gap significand exponent := by
  unfold gap
  by_cases h : significand = 2 ^ 52 ∧ exponent ≠ -1074
  · rw [if_pos (by simpa using h), if_pos h]
    norm_num
  · rw [if_neg (by simpa using h), if_neg h]
    norm_num

theorem fine_magnitude (hc : Canonical significand exponent) (hpos : 0 < significand) :
    (magnitude significand exponent).Fine := by
  have hup : 0 < 1 <<< (exponent - 2).toNat := by
    rw [Nat.one_shiftLeft]
    positivity
  have hlt := hc.significand_lt
  unfold magnitude Magnitude.ofBinary
  simp only []
  generalize 1 <<< (exponent - 2).toNat = up at hup ⊢
  generalize hquarters : (if significand == 2 ^ 52 && exponent != -1074 then 1 else 2) = quarters
  have hq : quarters = 2 ∨ (quarters = 1 ∧ significand = 2 ^ 52) := by
    rw [← hquarters]
    split
    · next h =>
      rw [Bool.and_eq_true, beq_iff_eq] at h
      exact .inr ⟨rfl, h.1⟩
    · exact .inl rfl
  have hreach : 4 * significand * up - (4 * significand - quarters) * up = quarters * up := by
    rw [← Nat.sub_mul]
    congr 1
    omega
  refine ⟨?_, Nat.mul_lt_mul_of_pos_right (by omega) hup, ?_, ?_⟩
  · rw [Nat.one_shiftLeft]
    positivity
  · simp only []
    rw [← Nat.add_mul, ← Nat.mul_assoc]
    exact Nat.mul_le_mul_right _ (by omega)
  · simp only []
    rw [hreach, ← Nat.mul_assoc]
    exact Nat.mul_lt_mul_of_pos_right (by omega) hup

/-- No positive double is below the power of ten down to which the first digit is looked for. -/
theorem den_magnitude_le (hc : Canonical significand exponent) (hpos : 0 < significand) :
    (magnitude significand exponent).den ≤
      (magnitude significand exponent).num * 10 ^ (324 + 1) := by
  have hlow := hc.low
  have hpow : 2 ^ (43 * 25) ≤ 10 ^ (324 + 1) := by
    rw [show 324 + 1 = 13 * 25 from rfl, Nat.pow_mul, Nat.pow_mul]
    exact Nat.pow_le_pow_left (by norm_num) _
  have hnum : 2 ≤ (magnitude significand exponent).num := by
    have hup : 0 < 1 <<< (exponent - 2).toNat := by
      rw [Nat.one_shiftLeft]
      positivity
    calc 2 ≤ 4 * significand * 1 := by omega
      _ ≤ 4 * significand * (1 <<< (exponent - 2).toNat) := Nat.mul_le_mul_left _ hup
  have hden {a b : Nat} (h : (2 - exponent).toNat ≤ a + b) :
      2 ^ (2 - exponent).toNat ≤ 2 ^ a * 2 ^ b := by
    rw [← Nat.pow_add]
    exact Nat.pow_le_pow_right two_pos h
  calc (magnitude significand exponent).den = 2 ^ (2 - exponent).toNat := Nat.one_shiftLeft _
    _ ≤ 2 ^ 1 * 2 ^ (43 * 25) := hden (by omega)
    _ ≤ _ := Nat.mul_le_mul hnum hpow

theorem den_magnitude (significand : Nat) (exponent : Int) :
    ((magnitude significand exponent).den : ℚ) = 2 ^ (2 - exponent).toNat := by
  have : (magnitude significand exponent).den = 2 ^ (2 - exponent).toNat := Nat.one_shiftLeft _
  rw [this, Nat.cast_pow, Nat.cast_ofNat]

/-- A quarter of the last bit is the unit. -/
theorem unit_magnitude (significand : Nat) (exponent : Int) :
    4 * ((1 <<< (exponent - 2).toNat : Nat) : ℚ) =
      2 ^ exponent * (magnitude significand exponent).den := by
  rw [den_magnitude, Nat.one_shiftLeft]
  push_cast
  rw [pow_toNat two_ne_zero (exponent - 2), neg_sub, zpow_sub₀ two_ne_zero]
  norm_num
  ring

theorem low_magnitude (hpos : 0 < significand) (exponent : Int) :
    ((magnitude significand exponent).low : ℚ) =
      (significand - gap significand exponent) * 2 ^ exponent *
        (magnitude significand exponent).den := by
  have hle : (if significand == 2 ^ 52 && exponent != -1074 then 1 else 2) ≤ 4 * significand := by
    split <;> omega
  have : ((magnitude significand exponent).low : ℚ) =
      ((4 * significand -
        if significand == 2 ^ 52 && exponent != -1074 then 1 else 2 : Nat) : ℚ) *
        (1 <<< (exponent - 2).toNat : Nat) := Nat.cast_mul _ _
  rw [this, Nat.cast_sub hle, quarters_eq, mul_assoc, ← unit_magnitude]
  push_cast
  ring

theorem high_magnitude (significand : Nat) (exponent : Int) :
    ((magnitude significand exponent).high : ℚ) =
      (significand + 1 / 2) * 2 ^ exponent * (magnitude significand exponent).den := by
  have : ((magnitude significand exponent).high : ℚ) =
      ((4 * significand + 2 : Nat) : ℚ) * (1 <<< (exponent - 2).toNat : Nat) := Nat.cast_mul _ _
  rw [this, mul_assoc, ← unit_magnitude]
  push_cast
  ring

theorem closed_magnitude (significand : Nat) (exponent : Int) :
    (magnitude significand exponent).closed = false ↔ significand % 2 = 1 := by
  change (significand % 2 == 0) = false ↔ _
  rw [beq_eq_false_iff_ne]
  omega

/-- The rounding interval of a double holds the numbers that stand for it. -/
theorem holds_magnitude_iff (hpos : 0 < significand) (q : ℚ) :
    (magnitude significand exponent).Holds q ↔ Stands significand exponent q := by
  have hden_pos : (0 : ℚ) < (magnitude significand exponent).den := by
    rw [den_magnitude]
    positivity
  have hlow := low_magnitude hpos exponent
  have hhigh := high_magnitude significand exponent
  have hodd := closed_magnitude significand exponent
  have hle (a b : ℚ) := mul_le_mul_iff_left₀ (b := a) (c := b) hden_pos
  have hlt (a b : ℚ) := mul_lt_mul_iff_left₀ (b := a) (c := b) hden_pos
  constructor
  · rintro ⟨h₁, h₂, h₃⟩
    rw [hlow, hle] at h₁
    rw [hhigh, hle] at h₂
    rw [hlow, hhigh, hlt, hlt, hodd] at h₃
    exact ⟨h₁, h₂, h₃⟩
  · rintro ⟨h₁, h₂, h₃⟩
    refine ⟨?_, ?_, ?_⟩
    · rwa [hlow, hle]
    · rwa [hhigh, hle]
    · rwa [hlow, hhigh, hlt, hlt, hodd]

/-- The shortest digits of a positive double stand for it. -/
theorem stands_shortest (hc : Canonical significand exponent) (hpos : 0 < significand) (tie : Tie) :
    Stands significand exponent ((magnitude significand exponent).shortest tie).value :=
  (holds_magnitude_iff hpos _).1
    (Magnitude.shortest_holds (fine_magnitude hc hpos) (den_magnitude_le hc hpos) tie)

end Doubles

end MovingTarget.Decimal
