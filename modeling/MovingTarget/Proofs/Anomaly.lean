import MovingTarget.Proofs.Rationals
import MovingTarget.Scoring
/-!
# Traffic that deviates from a baseline

Read with exact arithmetic, the anomaly score is the sum of what four measures of traffic
contribute, up to one (`score_eq_min`). A measure contributes its weight times how far it is from
its baseline, relative to it and at most one; it contributes nothing when the baseline is not
positive. So the score is zero without a deviation that counts, it grows with every distance, and it
is as high as it can be once every measure is as far from its baseline as the baseline is from zero.
-/
namespace MovingTarget
open Scalar

/-! ## Measures of traffic -/

/-- What the anomaly score looks at. -/
inductive Measure where
  | packetRate
  | byteRate
  | connections
  | latency
  deriving DecidableEq

instance : Fintype Measure where
  elems := {.packetRate, .byteRate, .connections, .latency}
  complete m := by cases m <;> decide

def Traffic.reading {α : Type} [Scalar α] (t : Traffic α) : Measure → α
  | .packetRate => t.packetRate
  | .byteRate => t.byteRate
  | .connections => ofCount t.activeConnections.toNat
  | .latency => t.averageLatency

def AnomalyWeights.weight {α : Type} (w : AnomalyWeights α) : Measure → α
  | .packetRate => w.packetRate
  | .byteRate => w.byteRate
  | .connections => w.connections
  | .latency => w.latency

theorem Measure.sum_eq (f : Measure → ℚ) :
    ∑ m, f m = f .packetRate + f .byteRate + f .connections + f .latency := by
  have huniv : (Finset.univ : Finset Measure) = {.packetRate, .byteRate, .connections, .latency} :=
    rfl
  rw [huniv]
  simp [add_assoc]

theorem min_one_eq_zero_iff {x : ℚ} : min x 1 = 0 ↔ x = 0 := by
  constructor
  · intro h
    rcases min_choice x 1 with hx | hone
    · exact hx.symm.trans h
    · exact absurd (hone.symm.trans h) one_ne_zero
  · rintro rfl
    exact min_eq_left zero_le_one

/-! ## One measure -/

section Deviation
variable {current current' base : ℚ}

theorem deviation_of_pos (h : 0 < base) :
    deviation current base = min (|current - base| / base) 1 := by
  rw [deviation, rat_zero, rat_one, if_pos h, least_eq_min, distance_eq_abs]

theorem deviation_of_nonpos (h : base ≤ 0) : deviation current base = 0 := by
  rw [deviation, rat_zero, if_neg (not_lt.2 h)]

theorem deviation_nonneg (current base : ℚ) : 0 ≤ deviation current base := by
  rcases lt_or_ge 0 base with hbase | hbase
  · rw [deviation_of_pos hbase]
    exact le_min (div_nonneg (abs_nonneg _) hbase.le) zero_le_one
  · rw [deviation_of_nonpos hbase]

theorem deviation_le_one (current base : ℚ) : deviation current base ≤ 1 := by
  rcases lt_or_ge 0 base with hbase | hbase
  · rw [deviation_of_pos hbase]
    exact min_le_right _ _
  · rw [deviation_of_nonpos hbase]
    exact zero_le_one

theorem deviation_eq_zero_iff (h : 0 < base) : deviation current base = 0 ↔ current = base := by
  rw [deviation_of_pos h, min_one_eq_zero_iff, div_eq_zero_iff, abs_eq_zero, sub_eq_zero]
  exact or_iff_left h.ne'

theorem deviation_mono (h : |current - base| ≤ |current' - base|) :
    deviation current base ≤ deviation current' base := by
  rcases lt_or_ge 0 base with hbase | hbase
  · rw [deviation_of_pos hbase, deviation_of_pos hbase]
    exact min_le_min_right 1 (div_le_div_of_nonneg_right h hbase.le)
  · rw [deviation_of_nonpos hbase, deviation_of_nonpos hbase]

theorem deviation_eq_one (hbase : 0 < base) (h : base ≤ |current - base|) :
    deviation current base = 1 := by
  rw [deviation_of_pos hbase]
  exact min_eq_right ((one_le_div hbase).2 h)

theorem deviation_scale {k : ℚ} (hk : 0 < k) (current base : ℚ) :
    deviation (k * current) (k * base) = deviation current base := by
  rcases lt_or_ge 0 base with hbase | hbase
  · rw [deviation_of_pos hbase, deviation_of_pos (mul_pos hk hbase), ← mul_sub, abs_mul,
      abs_of_pos hk, mul_div_mul_left _ _ hk.ne']
  · rw [deviation_of_nonpos hbase, deviation_of_nonpos (mul_nonpos_of_nonneg_of_nonpos hk.le hbase)]

end Deviation

/-! ## All measures -/

namespace AnomalyWeights
variable {w : AnomalyWeights ℚ} {current current' base base' : Traffic ℚ}

/-- What a measure adds to the score. -/
def contribution (w : AnomalyWeights ℚ) (current base : Traffic ℚ) (m : Measure) : ℚ :=
  w.weight m * deviation (current.reading m) (base.reading m)

/-- The measures with a positive baseline count, together for one at most. -/
def limit (w : AnomalyWeights ℚ) (base : Traffic ℚ) : ℚ :=
  min (∑ m with 0 < base.reading m, w.weight m) 1

theorem score_eq_unit (w : AnomalyWeights ℚ) (current base : Traffic ℚ) :
    w.score current base = unit (∑ m, w.contribution current base m) := by
  rw [Measure.sum_eq]
  rfl

theorem score_congr (h : ∀ m, w.contribution current base m = w.contribution current' base' m) :
    w.score current base = w.score current' base' := by
  rw [score_eq_unit, score_eq_unit, Finset.sum_congr rfl fun m _ => h m]

theorem contribution_of_nonpos {m : Measure} (h : base.reading m ≤ 0) :
    w.contribution current base m = 0 := by
  rw [contribution, deviation_of_nonpos h, mul_zero]

section Weights
variable (hw : ∀ m, 0 ≤ w.weight m)
include hw

theorem contribution_nonneg (current base : Traffic ℚ) (m : Measure) :
    0 ≤ w.contribution current base m := mul_nonneg (hw m) (deviation_nonneg _ _)

theorem sum_contribution_nonneg (current base : Traffic ℚ) :
    0 ≤ ∑ m, w.contribution current base m :=
  Finset.sum_nonneg fun m _ => contribution_nonneg hw current base m

theorem score_eq_min (current base : Traffic ℚ) :
    w.score current base = min (∑ m, w.contribution current base m) 1 := by
  rw [score_eq_unit, unit_eq_max,
    max_eq_right (le_min (sum_contribution_nonneg hw current base) zero_le_one)]

theorem contribution_eq_zero_iff {m : Measure} :
    w.contribution current base m = 0 ↔
      (0 < w.weight m → 0 < base.reading m → current.reading m = base.reading m) := by
  rcases (hw m).eq_or_lt with hweight | hweight
  · simp [contribution, ← hweight]
  · rcases lt_or_ge 0 (base.reading m) with hbase | hbase
    · simp only [contribution, mul_eq_zero, hweight.ne', deviation_eq_zero_iff hbase, false_or,
        hweight, hbase, true_imp_iff]
    · exact iff_of_true (contribution_of_nonpos hbase) fun _ hpos => absurd hbase (not_le.2 hpos)

theorem score_eq_zero_iff :
    w.score current base = 0 ↔
      ∀ m, 0 < w.weight m → 0 < base.reading m → current.reading m = base.reading m := by
  rw [score_eq_min hw, min_one_eq_zero_iff,
    Finset.sum_eq_zero_iff_of_nonneg fun m _ => contribution_nonneg hw current base m]
  simp only [Finset.mem_univ, true_imp_iff, contribution_eq_zero_iff hw]

/-- What is further from its baseline contributes no less. -/
theorem score_mono
    (h : ∀ m, |current.reading m - base.reading m| ≤ |current'.reading m - base.reading m|) :
    w.score current base ≤ w.score current' base := by
  rw [score_eq_unit, score_eq_unit]
  refine unit_mono (Finset.sum_le_sum fun m _ => ?_)
  exact mul_le_mul_of_nonneg_left (deviation_mono (h m)) (hw m)

theorem score_le_limit (current base : Traffic ℚ) : w.score current base ≤ w.limit base := by
  rw [score_eq_min hw, limit, Finset.sum_filter]
  refine min_le_min_right 1 (Finset.sum_le_sum fun m _ => ?_)
  split
  · exact mul_le_of_le_one_right (hw m) (deviation_le_one _ _)
  · next hbase => rw [contribution_of_nonpos (not_lt.1 hbase)]

theorem score_eq_limit
    (h : ∀ m, 0 < base.reading m → base.reading m ≤ |current.reading m - base.reading m|) :
    w.score current base = w.limit base := by
  rw [score_eq_min hw, limit, Finset.sum_filter]
  refine congrArg (min · 1) (Finset.sum_congr rfl fun m _ => ?_)
  split
  · next hbase => rw [contribution, deviation_eq_one hbase (h m hbase), mul_one]
  · next hbase => exact contribution_of_nonpos (not_lt.1 hbase)

end Weights

/-- With weights that are not negative, the score is zero exactly if every measure that has a weight
and a positive baseline is at its baseline. It never falls when measures move away from their
baselines. It is at most one, at most the sum of the weights of the measures with a positive
baseline, and the lower of the two once each of these measures is off by its whole baseline or more.
To measure in another unit makes no difference, and neither do measures without a positive
baseline. -/
theorem score_measures_deviation (hw : ∀ m, 0 ≤ w.weight m) (base : Traffic ℚ) :
    (∀ current, w.score current base = 0 ↔
      ∀ m, 0 < w.weight m → 0 < base.reading m → current.reading m = base.reading m) ∧
    (∀ current current',
      (∀ m, |current.reading m - base.reading m| ≤ |current'.reading m - base.reading m|) →
      w.score current base ≤ w.score current' base) ∧
    (∀ current, w.score current base ≤ min (∑ m with 0 < base.reading m, w.weight m) 1) ∧
    (∀ current,
      (∀ m, 0 < base.reading m → 1 ≤ |current.reading m - base.reading m| / base.reading m) →
      w.score current base = min (∑ m with 0 < base.reading m, w.weight m) 1) ∧
    (∀ current current' base',
      (∀ m, ∃ k > 0, current'.reading m = k * current.reading m ∧
        base'.reading m = k * base.reading m) →
      w.score current' base' = w.score current base) ∧
    (∀ current current', (∀ m, 0 < base.reading m → current'.reading m = current.reading m) →
      w.score current' base = w.score current base) := by
  refine ⟨fun current => score_eq_zero_iff hw, fun current current' => score_mono hw,
    fun current => score_le_limit hw current base, fun current hfar => ?_,
    fun current current' base' hscale => ?_, fun current current' hsame => ?_⟩
  · exact score_eq_limit hw fun m hbase => (one_le_div hbase).1 (hfar m hbase)
  · refine score_congr fun m => ?_
    obtain ⟨k, hk, hcurrent, hbase⟩ := hscale m
    rw [contribution, contribution, hcurrent, hbase, deviation_scale hk]
  · refine score_congr fun m => ?_
    rcases lt_or_ge 0 (base.reading m) with hbase | hbase
    · rw [contribution, contribution, hsame m hbase]
    · rw [contribution_of_nonpos hbase, contribution_of_nonpos hbase]

/-- One measure has no baseline; of the others one is off by half of its baseline, one by twice its
baseline and one not at all. -/
theorem score_measures_deviation_idle :
    let w : AnomalyWeights ℚ := .standard
    let base : Traffic ℚ := ⟨0, 0, 0, 0, 100, 0, 10, 5⟩
    let current : Traffic ℚ := ⟨0, 0, 0, 0, 150, 9, 30, 5⟩
    let remote : Traffic ℚ := ⟨0, 0, 0, 0, 0, 9, 40, 12⟩
    (∀ m, 0 ≤ w.weight m) ∧ w.score base base = 0 ∧ w.score current base = 2 / 5 ∧
      w.score current base ≤ w.score remote base ∧ w.score remote base = 7 / 10 ∧
      w.score ⟨0, 0, 0, 0, 300, 18, 60, 10⟩ ⟨0, 0, 0, 0, 200, 0, 20, 10⟩ = w.score current base ∧
      w.score { current with byteRate := 0 } base = w.score current base := by
  intro w base current remote
  have hw : ∀ m, 0 ≤ w.weight m := by decide +kernel
  have hlimit : min (∑ m with 0 < base.reading m, w.weight m) 1 = 7 / 10 := by decide +kernel
  obtain ⟨hzero, hmono, -, hlimited, hscale, hsame⟩ := score_measures_deviation hw base
  refine ⟨hw, (hzero base).2 fun _ _ _ => rfl, by decide +kernel,
    hmono current remote (by decide +kernel), ?_, hscale current _ _ fun m => ?_,
    hsame current _ (by decide +kernel)⟩
  · rw [hlimited remote (by decide +kernel), hlimit]
  · refine ⟨2, two_pos, ?_, ?_⟩ <;> revert m <;> decide +kernel

end AnomalyWeights
end MovingTarget
