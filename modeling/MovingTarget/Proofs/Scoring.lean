import MovingTarget.Proofs.Rationals
import MovingTarget.Scoring
/-!
# Scores that walk towards what is observed

Read with exact arithmetic, a scorer whose weights are shares of a whole puts the next score between
the current one and the blend of the signals, so nothing is left to cut off (`unit_smoothed`). Every
round on one observation leaves the same part of the gap between the two (`iterate_next_eq`), and
more of a signal never lowers a score (`next_mono`).
-/
namespace MovingTarget.Scorer
open Scalar

/-- No weight is negative, and together they are at most one. -/
structure Shares (k : Scorer ℚ) : Prop where
  rate_nonneg : 0 ≤ k.rateWeight
  pattern_nonneg : 0 ≤ k.patternWeight
  persistence_nonneg : 0 ≤ k.persistenceWeight
  sum_le_one : k.rateWeight + k.patternWeight + k.persistenceWeight ≤ 1

variable {k : Scorer ℚ}

/-! ## The blend of the signals -/

section Blend
variable (h : k.Shares)
include h

theorem blend_nonneg (o : Observation ℚ) : 0 ≤ k.blend o := by
  have hrate := mul_nonneg h.rate_nonneg (unit_nonneg o.rateAnomaly)
  have hpattern := mul_nonneg h.pattern_nonneg (unit_nonneg o.patternAnomaly)
  have hpersistence := mul_nonneg h.persistence_nonneg (unit_nonneg o.persistence)
  exact add_nonneg (add_nonneg hrate hpattern) hpersistence

theorem blend_le_one (o : Observation ℚ) : k.blend o ≤ 1 := by
  have hrate := mul_le_of_le_one_right h.rate_nonneg (unit_le_one o.rateAnomaly)
  have hpattern := mul_le_of_le_one_right h.pattern_nonneg (unit_le_one o.patternAnomaly)
  have hpersistence := mul_le_of_le_one_right h.persistence_nonneg (unit_le_one o.persistence)
  exact (add_le_add (add_le_add hrate hpattern) hpersistence).trans h.sum_le_one

theorem blend_mono {o o' : Observation ℚ} (hrate : o.rateAnomaly ≤ o'.rateAnomaly)
    (hpattern : o.patternAnomaly ≤ o'.patternAnomaly)
    (hpersistence : o.persistence ≤ o'.persistence) : k.blend o ≤ k.blend o' :=
  add_le_add (add_le_add (mul_le_mul_of_nonneg_left (unit_mono hrate) h.rate_nonneg)
    (mul_le_mul_of_nonneg_left (unit_mono hpattern) h.pattern_nonneg))
    (mul_le_mul_of_nonneg_left (unit_mono hpersistence) h.persistence_nonneg)

end Blend

/-! ## One round -/

theorem next_unfold (k : Scorer ℚ) (o : Observation ℚ) (current : ℚ) :
    k.next o current =
      unit (unit k.alpha * k.blend o + (1 - unit k.alpha) * unit current) := by
  rw [next, rat_one]

/-- A score outside the unit interval counts as the nearest one inside. -/
theorem next_unit (k : Scorer ℚ) (o : Observation ℚ) (current : ℚ) :
    k.next o (unit current) = k.next o current := by
  rw [next_unfold, next_unfold, unit_of_mem (unit_nonneg current) (unit_le_one current)]

theorem next_mono (h : k.Shares) {o o' : Observation ℚ} (hrate : o.rateAnomaly ≤ o'.rateAnomaly)
    (hpattern : o.patternAnomaly ≤ o'.patternAnomaly)
    (hpersistence : o.persistence ≤ o'.persistence) {current current' : ℚ}
    (hcurrent : current ≤ current') : k.next o current ≤ k.next o' current' := by
  have hkept : 0 ≤ 1 - unit k.alpha := sub_nonneg.2 (unit_le_one k.alpha)
  rw [next_unfold, next_unfold]
  refine unit_mono (add_le_add ?_ ?_)
  · exact mul_le_mul_of_nonneg_left (blend_mono h hrate hpattern hpersistence)
      (unit_nonneg k.alpha)
  · exact mul_le_mul_of_nonneg_left (unit_mono hcurrent) hkept

/-- What lies between the blend and a score in the unit interval is in it as well. -/
theorem unit_smoothed (h : k.Shares) (o : Observation ℚ) {x : ℚ} (hzero : 0 ≤ x) (hone : x ≤ 1) :
    unit (unit k.alpha * k.blend o + (1 - unit k.alpha) * x) =
      unit k.alpha * k.blend o + (1 - unit k.alpha) * x := by
  have hkept : 0 ≤ 1 - unit k.alpha := sub_nonneg.2 (unit_le_one k.alpha)
  have hnew := mul_le_of_le_one_right (unit_nonneg k.alpha) (blend_le_one h o)
  have hold := mul_le_of_le_one_right hkept hone
  refine unit_of_mem ?_ ?_
  · exact add_nonneg (mul_nonneg (unit_nonneg k.alpha) (blend_nonneg h o)) (mul_nonneg hkept hzero)
  · linarith

/-! ## Many rounds -/

theorem iterate_next_mem (k : Scorer ℚ) (o : Observation ℚ) (start : ℚ) (n : ℕ) :
    0 ≤ (k.next o)^[n] (unit start) ∧ (k.next o)^[n] (unit start) ≤ 1 := by
  cases n with
  | zero => exact ⟨unit_nonneg start, unit_le_one start⟩
  | succ n =>
    rw [Function.iterate_succ_apply', next_unfold]
    exact ⟨unit_nonneg _, unit_le_one _⟩

theorem iterate_next_unit (k : Scorer ℚ) (o : Observation ℚ) (start : ℚ) (n : ℕ) :
    (k.next o)^[n + 1] (unit start) = (k.next o)^[n + 1] start := by
  rw [Function.iterate_succ_apply, Function.iterate_succ_apply, next_unit]

theorem iterate_next_succ (h : k.Shares) (o : Observation ℚ) (start : ℚ) (n : ℕ) :
    (k.next o)^[n + 1] (unit start) =
      unit k.alpha * k.blend o + (1 - unit k.alpha) * (k.next o)^[n] (unit start) := by
  obtain ⟨hzero, hone⟩ := k.iterate_next_mem o start n
  rw [Function.iterate_succ_apply', next_unfold, unit_of_mem hzero hone,
    unit_smoothed h o hzero hone]

theorem iterate_next_eq (h : k.Shares) (o : Observation ℚ) (start : ℚ) (n : ℕ) :
    (k.next o)^[n] (unit start) =
      k.blend o + (1 - unit k.alpha) ^ n * (unit start - k.blend o) := by
  induction n with
  | zero => rw [Function.iterate_zero_apply, pow_zero, one_mul, add_sub_cancel]
  | succ n ih =>
    -- The blend is a fixed point of the round, so a round scales the distance to it.
    rw [iterate_next_succ h, ih, pow_succ]
    ring

/-- What is left of the gap after more rounds is less of it. -/
theorem gap_antitone (k : Scorer ℚ) : Antitone fun n : ℕ => (1 - unit k.alpha) ^ n :=
  fun _ _ hmn => pow_le_pow_of_le_one (sub_nonneg.2 (unit_le_one k.alpha))
    (sub_le_self 1 (unit_nonneg k.alpha)) hmn

theorem gap_nonneg (k : Scorer ℚ) (n : ℕ) : 0 ≤ (1 - unit k.alpha) ^ n :=
  pow_nonneg (sub_nonneg.2 (unit_le_one k.alpha)) n

theorem iterate_next_rises (h : k.Shares) (o : Observation ℚ) {start : ℚ}
    (hbelow : unit start ≤ k.blend o) :
    Monotone (fun n => (k.next o)^[n] (unit start)) ∧
      ∀ n, (k.next o)^[n] (unit start) ≤ k.blend o := by
  have hgap : unit start - k.blend o ≤ 0 := sub_nonpos.2 hbelow
  constructor
  · intro m n hmn
    simp only [iterate_next_eq h]
    exact add_le_add_right (mul_le_mul_of_nonpos_right (k.gap_antitone hmn) hgap) _
  · intro n
    rw [iterate_next_eq h]
    exact add_le_of_nonpos_right (mul_nonpos_of_nonneg_of_nonpos (k.gap_nonneg n) hgap)

theorem iterate_next_falls (h : k.Shares) (o : Observation ℚ) {start : ℚ}
    (habove : k.blend o ≤ unit start) :
    Antitone (fun n => (k.next o)^[n] (unit start)) ∧
      ∀ n, k.blend o ≤ (k.next o)^[n] (unit start) := by
  have hgap : 0 ≤ unit start - k.blend o := sub_nonneg.2 habove
  constructor
  · intro m n hmn
    simp only [iterate_next_eq h]
    exact add_le_add_right (mul_le_mul_of_nonneg_right (k.gap_antitone hmn) hgap) _
  · intro n
    rw [iterate_next_eq h]
    exact le_add_of_nonneg_right (mul_nonneg (k.gap_nonneg n) hgap)

/-- Rounds on one observation walk from the start, brought into the unit interval, towards the blend
of the signals, which lies in that interval too: each round leaves the part of the gap that the
newest observation has no share in. From the start on, no score is outside the unit interval, nor is
what a round makes of it before it is brought there. So the scores rise to the blend or fall to it,
and never cross it. Whatever the observation, a round gives no less for a greater score or for more
of any signal. -/
theorem walks_towards_blend (h : k.Shares) (o : Observation ℚ) (start : ℚ) :
    let share := unit k.alpha
    let goal := k.blend o
    let s n := (k.next o)^[n] (unit start)
    (0 ≤ goal ∧ goal ≤ 1) ∧
    (∀ n, 1 ≤ n → (k.next o)^[n] start = s n ∧
      s n = goal + (1 - share) ^ n * (unit start - goal)) ∧
    (∀ n, unit (s n) = s n ∧
      unit (share * goal + (1 - share) * s n) = share * goal + (1 - share) * s n) ∧
    (unit start ≤ goal → Monotone s ∧ ∀ n, s n ≤ goal) ∧
    (goal ≤ unit start → Antitone s ∧ ∀ n, goal ≤ s n) ∧
    ∀ (x y : Observation ℚ) (current current' : ℚ), x.rateAnomaly ≤ y.rateAnomaly →
      x.patternAnomaly ≤ y.patternAnomaly → x.persistence ≤ y.persistence → current ≤ current' →
      k.next x current ≤ k.next y current' := by
  intro share goal s
  refine ⟨⟨blend_nonneg h o, blend_le_one h o⟩, fun n hn => ⟨?_, iterate_next_eq h o start n⟩,
    fun n => ?_, iterate_next_rises h o, iterate_next_falls h o,
    fun x y current current' hrate hpattern hpersistence =>
      next_mono h hrate hpattern hpersistence⟩
  · obtain ⟨m, rfl⟩ := Nat.exists_eq_add_of_le' hn
    exact (k.iterate_next_unit o start m).symm
  · obtain ⟨hzero, hone⟩ := k.iterate_next_mem o start n
    exact ⟨unit_of_mem hzero hone, unit_smoothed h o hzero hone⟩

/-- Two of the signals and the start are outside the unit interval. -/
theorem walks_towards_blend_outside :
    let k : Scorer ℚ := ⟨1 / 2, 1 / 2, 1 / 4, 1 / 8⟩
    let o : Observation ℚ := ⟨2, 0, 1 / 2, -1, .none, 0, 0⟩
    k.Shares ∧ k.blend o = 5 / 8 ∧ (k.next o)^[2] 3 = 23 / 32 ∧
      k.blend o ≤ (k.next o)^[7] (unit 3) ∧
      k.next o (1 / 4) ≤ k.next { o with persistence := 1 } (1 / 3) := by
  intro k o
  have h : k.Shares := ⟨by decide +kernel, by decide +kernel, by decide +kernel, by decide +kernel⟩
  have hblend : k.blend o = 5 / 8 := by decide +kernel
  have hshare : unit k.alpha = 1 / 2 := by decide +kernel
  have hstart : unit (3 : ℚ) = 1 := by decide +kernel
  obtain ⟨-, hwalk, -, -, hfalls, hmono⟩ := walks_towards_blend h o 3
  obtain ⟨hiterate, hclosed⟩ := hwalk 2 (by decide)
  refine ⟨h, hblend, ?_, (hfalls (by decide +kernel)).2 7, hmono _ _ _ _ ?_ ?_ ?_ ?_⟩
  · rw [hiterate, hclosed, hblend, hshare, hstart]
    norm_num
  · exact le_refl o.rateAnomaly
  · exact le_refl o.patternAnomaly
  · decide +kernel
  · decide +kernel

end MovingTarget.Scorer
