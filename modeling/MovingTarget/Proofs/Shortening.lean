import MovingTarget.Policy.AdaptiveInterval
import MovingTarget.Policy.Layered
import MovingTarget.Proofs.Rationals
/-!
# More risk, shorter intervals

Read with exact arithmetic, the base interval divided by one plus the risk falls as the risk grows
(`Pace.shortened_anti`), and bounds keep that order. The risk grows with the mean score and with the
members at high risk (`risk_mono`); a rise of the mean score weights it up and a fall weights it
down (`trendedRisk_eq`). So both policies that set intervals ask for no longer one when there is
more risk.
-/
namespace MovingTarget
open Scalar

/-! ## Intervals and risks -/

namespace Pace
variable {p : Pace ℚ} {r r' : ℚ}

theorem shortened_eq (p : Pace ℚ) (r : ℚ) : p.shortened r = p.base / (1 + r) := by
  rw [shortened, rat_one]

theorem shortened_anti (hbase : 0 ≤ p.base) (hr : 0 ≤ r) (h : r ≤ r') :
    p.shortened r' ≤ p.shortened r := by
  rw [shortened_eq, shortened_eq]
  exact div_le_div_of_nonneg_left hbase (by linarith) (by linarith)

theorem shortened_lt (hbase : 0 < p.base) (hr : 0 ≤ r) (h : r < r') :
    p.shortened r' < p.shortened r := by
  rw [shortened_eq, shortened_eq]
  exact div_lt_div_of_pos_left hbase (by linarith) (by linarith)

end Pace

namespace DomainSummary
variable {m m' : DomainSummary ℚ}

theorem risk_eq (m : DomainSummary ℚ) : m.risk = m.meanScore + 1 / 10 * m.highRisk := by
  have htenth : (0.1 : ℚ) = 1 / 10 := by norm_num
  rw [risk, htenth]
  rfl

theorem risk_nonneg (h : 0 ≤ m.meanScore) : 0 ≤ m.risk := by
  rw [risk_eq]
  positivity

theorem risk_mono (hscore : m.meanScore ≤ m'.meanScore) (hcount : m.highRisk ≤ m'.highRisk) :
    m.risk ≤ m'.risk := by
  rw [risk_eq, risk_eq]
  gcongr

end DomainSummary

/-! ## What the policies ask for -/

variable {m m' : DomainSummary ℚ}

namespace AdaptiveInterval

theorem target_eq (p : AdaptiveInterval ℚ) (m : DomainSummary ℚ) :
    p.target m = min (max (p.pace.shortened m.risk) p.pace.min) p.pace.max := by
  rw [target, greatest_eq_max, least_eq_min]

theorem target_anti {p : AdaptiveInterval ℚ} (hbase : 0 ≤ p.pace.base) (hm : 0 ≤ m.risk)
    (h : m.risk ≤ m'.risk) : p.target m' ≤ p.target m := by
  rw [target_eq, target_eq]
  exact min_le_min_right _ (max_le_max_right _ (Pace.shortened_anti hbase hm h))

end AdaptiveInterval

namespace Layered
variable {p q : Layered ℚ} {d : DomainId} {s t : ℚ}

/-- What a trend of this slope multiplies the risk by. -/
def trendWeight (slope : ℚ) : ℚ :=
  if 0.1 < slope then 1.5 else if slope < -0.1 then 0.7 else 1

theorem trendedRisk_eq (m : DomainSummary ℚ) (slope : ℚ) :
    trendedRisk m slope = m.risk * trendWeight slope := by
  rw [trendedRisk, trendWeight, trendSlope]
  split
  · rfl
  · split
    · rfl
    · exact (mul_one _).symm

theorem trendWeight_rising (h : 0.1 < s) : trendWeight s = 1.5 := if_pos h

theorem trendWeight_flat (hlow : -0.1 ≤ s) (hhigh : s ≤ 0.1) : trendWeight s = 1 := by
  rw [trendWeight, if_neg (not_lt.2 hhigh), if_neg (not_lt.2 hlow)]

theorem trendWeight_falling (h : s < -0.1) : trendWeight s = 0.7 := by
  have hnot : ¬ 0.1 < s := by
    intro hrise
    norm_num at h hrise
    linarith
  rw [trendWeight, if_neg hnot, if_pos h]

theorem trendWeight_pos (slope : ℚ) : 0 < trendWeight slope := by
  rw [trendWeight]
  split
  · norm_num
  · split <;> norm_num

theorem target_of_trend (h : trend? (p.scores d) = some s) (m : DomainSummary ℚ) :
    p.target d m =
      max (min (p.pace.shortened (m.risk * trendWeight s)) p.pace.max) p.pace.min := by
  rw [target, h]
  dsimp only
  rw [trendedRisk_eq, least_eq_min, greatest_eq_max]

/-- As long as there is no trend the base interval is asked for at any risk. -/
theorem target_anti (hbase : 0 ≤ p.pace.base) (hm : 0 ≤ m.risk) (h : m.risk ≤ m'.risk)
    (d : DomainId) : p.target d m' ≤ p.target d m := by
  cases htrend : trend? (p.scores d) with
  | none => rw [target, target, htrend]
  | some slope =>
    rw [target_of_trend htrend, target_of_trend htrend]
    have hweight := trendWeight_pos slope
    refine max_le_max_right _ (min_le_min_right _ (Pace.shortened_anti hbase ?_ ?_))
    · exact mul_nonneg hm hweight.le
    · exact mul_le_mul_of_nonneg_right h hweight.le

theorem target_le_of_weight (hpace : p.pace = q.pace) (hbase : 0 ≤ q.pace.base) (hm : 0 ≤ m.risk)
    (hp : trend? (p.scores d) = some s) (hq : trend? (q.scores d) = some t)
    (h : trendWeight t ≤ trendWeight s) : p.target d m ≤ q.target d m := by
  rw [target_of_trend hp, target_of_trend hq, hpace]
  refine max_le_max_right _ (min_le_min_right _ (Pace.shortened_anti hbase ?_ ?_))
  · exact mul_nonneg hm (trendWeight_pos t).le
  · exact mul_le_mul_of_nonneg_left h hm

theorem shortened_lt_of_weight {pace : Pace ℚ} (hbase : 0 < pace.base) (hm : 0 < m.risk)
    (h : trendWeight t < trendWeight s) :
    pace.shortened (trendedRisk m s) < pace.shortened (trendedRisk m t) := by
  rw [trendedRisk_eq, trendedRisk_eq]
  refine Pace.shortened_lt hbase ?_ ?_
  · exact mul_nonneg hm.le (trendWeight_pos t).le
  · exact mul_lt_mul_of_pos_left h hm

end Layered

open Layered in
/-- With a base interval and a mean score that are not negative, neither policy asks for a longer
interval for a domain when its mean score or the number of its members at high risk is greater; for
the layered policy this compares two summaries under one record of mean scores, whichever it is.
The risk is the mean score and a tenth for every member at high risk. What a policy asks for is the
base interval shortened by the risk, for the layered policy by the risk weighted by the trend, and
then brought into the range. For one summary the layered policy asks under a rising trend for an
interval that is at most the one under a flat trend, and that for one that is at most the one under
a falling trend. Before they are brought into the range these intervals differ, if the base interval
and the risk are positive. -/
theorem riskier_no_longer {pace : Pace ℚ} (hbase : 0 ≤ pace.base) {m : DomainSummary ℚ}
    (hscore : 0 ≤ m.meanScore) :
    (∀ m' : DomainSummary ℚ, m.meanScore ≤ m'.meanScore → m.highRisk ≤ m'.highRisk →
      (∀ p : AdaptiveInterval ℚ, p.pace = pace → p.target m' ≤ p.target m) ∧
      ∀ p : Layered ℚ, p.pace = pace → ∀ d, p.target d m' ≤ p.target d m) ∧
    m.risk = m.meanScore + 1 / 10 * m.highRisk ∧
    (∀ p : AdaptiveInterval ℚ, p.pace = pace →
      p.target m = min (max (pace.base / (1 + m.risk)) pace.min) pace.max) ∧
    (∀ (p : Layered ℚ) (d : DomainId) (slope : ℚ), p.pace = pace →
      trend? (p.scores d) = some slope →
      p.target d m = max (min (pace.base / (1 + trendedRisk m slope)) pace.max) pace.min) ∧
    ∀ (p q r : Layered ℚ) (d : DomainId) (rising flat falling : ℚ),
      p.pace = pace → q.pace = pace → r.pace = pace →
      trend? (p.scores d) = some rising → 0.1 < rising →
      trend? (q.scores d) = some flat → -0.1 ≤ flat → flat ≤ 0.1 →
      trend? (r.scores d) = some falling → falling < -0.1 →
      p.target d m ≤ q.target d m ∧ q.target d m ≤ r.target d m ∧
      (0 < pace.base → 0 < m.risk →
        pace.base / (1 + trendedRisk m rising) < pace.base / (1 + trendedRisk m flat) ∧
        pace.base / (1 + trendedRisk m flat) < pace.base / (1 + trendedRisk m falling)) := by
  have hm := DomainSummary.risk_nonneg hscore
  simp only [← Pace.shortened_eq]
  refine ⟨?_, m.risk_eq, ?_, ?_, ?_⟩
  · intro m' hmean hcount
    have hrisk := DomainSummary.risk_mono hmean hcount
    constructor
    · rintro p rfl
      exact p.target_anti hbase hm hrisk
    · rintro p rfl d
      exact p.target_anti hbase hm hrisk d
  · rintro p rfl
    exact p.target_eq m
  · rintro p d slope rfl htrend
    rw [target_of_trend htrend, trendedRisk_eq]
  · rintro p q r d rising flat falling hp rfl hr hrising hrise hflat hlow hhigh hfalling hfall
    have hupper : trendWeight flat < trendWeight rising := by
      rw [trendWeight_flat hlow hhigh, trendWeight_rising hrise]
      norm_num
    have hlower : trendWeight falling < trendWeight flat := by
      rw [trendWeight_falling hfall, trendWeight_flat hlow hhigh]
      norm_num
    refine ⟨?_, ?_, fun hbase hm => ⟨?_, ?_⟩⟩
    · exact target_le_of_weight hp hbase hm hrising hflat hupper.le
    · exact target_le_of_weight hr.symm (hr ▸ hbase) hm hflat hfalling hlower.le
    · exact shortened_lt_of_weight hbase hm hupper
    · exact shortened_lt_of_weight hbase hm hlower

/-- The mean scores of a domain climb by a quarter, stay, or go down by a quarter in every epoch. -/
theorem riskier_no_longer_quarters :
    let pace : Pace ℚ := ⟨30, 5, 120⟩
    let m : DomainSummary ℚ := ⟨4, 0, 0, 30, 1 / 2, 2⟩
    let riskier : DomainSummary ℚ := { m with meanScore := 3 / 4, highRisk := 3 }
    let plain : AdaptiveInterval ℚ := ⟨pace, 0⟩
    let p scores : Layered ℚ := ⟨0.6, pace, .high, ∅, .ofList [(1, scores)], false⟩
    let up := p [1, 3 / 4, 1 / 2, 1 / 4, 0]
    let level := p [1 / 2, 1 / 2, 1 / 2, 1 / 2, 1 / 2]
    let down := p [0, 1 / 4, 1 / 2, 3 / 4, 1]
    0 ≤ pace.base ∧ 0 ≤ m.meanScore ∧
      plain.target riskier ≤ plain.target m ∧ plain.target m = 300 / 17 ∧
      up.target 1 riskier ≤ up.target 1 m ∧ up.target 1 m = 600 / 41 ∧
      up.target 1 m ≤ level.target 1 m ∧ level.target 1 m ≤ down.target 1 m ∧
      pace.base / (1 + Layered.trendedRisk m (1 / 5)) <
        pace.base / (1 + Layered.trendedRisk m 0) := by
  intro pace m riskier plain p up level down
  have hbase : 0 ≤ pace.base := by decide +kernel
  have hscore : 0 ≤ m.meanScore := by decide +kernel
  obtain ⟨hmore, -, hplain, hlayered, htrends⟩ := riskier_no_longer hbase hscore
  have hrising : Layered.trend? (up.scores 1) = some (1 / 5) := by decide +kernel
  obtain ⟨hrise, hfall, hstrict⟩ := htrends up level down 1 (1 / 5) 0 (-1 / 5) rfl rfl rfl
    hrising (by decide +kernel) (by decide +kernel) (by decide +kernel) (by decide +kernel)
    (by decide +kernel) (by decide +kernel)
  have hboth := hmore riskier (by decide +kernel) (by decide)
  refine ⟨hbase, hscore, hboth.1 plain rfl, (hplain plain rfl).trans (by decide +kernel),
    hboth.2 up rfl 1, (hlayered up 1 (1 / 5) rfl hrising).trans (by decide +kernel), hrise, hfall,
    (hstrict ?_ ?_).1⟩
  · decide +kernel
  · decide +kernel

end MovingTarget
