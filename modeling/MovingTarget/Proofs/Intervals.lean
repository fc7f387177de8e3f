import MovingTarget.Policy.AdaptiveInterval
import MovingTarget.Proofs.Comparisons
import MovingTarget.Proofs.Layered.Memory
/-!
# Two ways into one range

Both policies that set intervals shorten the base interval by the risk and bring the quotient into
the range between the shortest and the longest interval. One goes under the upper bound first, the
other over the lower bound first. For a number that makes no difference (`bounded_agree`). What is
no number is passed over by whichever bound comes first, so it ends at that bound: at the longest
interval in the one policy, at the shortest in the other (`bounded_apart`).
-/
namespace MovingTarget

namespace Scalar.Comparable
variable {α : Type} [Scalar α] (h : Comparable α) {lo hi x : α}
include h

theorem greatest_least (hrange : lo ≤ hi) (x : α) :
    greatest (least x hi) lo =
      if x < hi then if lo < x then x else lo else if lo < hi then hi else lo := by
  obtain ⟨hlo, hhi⟩ := h.numbers_of_le lo hi hrange
  rw [least, if_pos hhi, greatest, if_pos hlo]
  split <;> rfl

theorem least_greatest (hrange : lo ≤ hi) (x : α) :
    least (greatest x lo) hi =
      if lo < x then if x < hi then x else hi else if lo < hi then lo else hi := by
  obtain ⟨hlo, hhi⟩ := h.numbers_of_le lo hi hrange
  rw [greatest, if_pos hlo, least, if_pos hhi]
  split <;> rfl

/-- Whatever goes under the upper bound and then over the lower one ends up between them. -/
theorem greatest_least_mem (hrange : lo ≤ hi) (x : α) :
    lo ≤ greatest (least x hi) lo ∧ greatest (least x hi) lo ≤ hi := by
  obtain ⟨hlo, hhi⟩ := h.numbers_of_le lo hi hrange
  have hlo : lo ≤ lo := of_decide_eq_true hlo
  have hhi : hi ≤ hi := of_decide_eq_true hhi
  rw [h.greatest_least hrange]
  split
  next hupper =>
    split
    next hlower => exact ⟨h.le_of_lt hlower, h.le_of_lt hupper⟩
    next => exact ⟨hlo, hrange⟩
  next =>
    split
    · exact ⟨hrange, hhi⟩
    · exact ⟨hlo, hrange⟩

/-- So does what goes over the lower bound first. -/
theorem least_greatest_mem (hrange : lo ≤ hi) (x : α) :
    lo ≤ least (greatest x lo) hi ∧ least (greatest x lo) hi ≤ hi := by
  obtain ⟨hlo, hhi⟩ := h.numbers_of_le lo hi hrange
  have hlo : lo ≤ lo := of_decide_eq_true hlo
  have hhi : hi ≤ hi := of_decide_eq_true hhi
  rw [h.least_greatest hrange]
  split
  next hlower =>
    split
    next hupper => exact ⟨h.le_of_lt hlower, h.le_of_lt hupper⟩
    next => exact ⟨hrange, hhi⟩
  next =>
    split
    · exact ⟨hlo, hrange⟩
    · exact ⟨hrange, hhi⟩

theorem bounded_refl (hrange : lo ≤ hi) (x : α) :
    greatest (least x hi) lo ≤ greatest (least x hi) lo :=
  of_decide_eq_true (h.numbers_of_le _ _ (h.greatest_least_mem hrange x).1).2

/-- For a number it does not matter which bound comes first. -/
theorem bounded_agree (hrange : lo < hi) (hx : isNumber x) :
    greatest (least x hi) lo = least (greatest x lo) hi := by
  have hle := h.le_of_lt hrange
  rw [h.greatest_least hle, h.least_greatest hle]
  by_cases hupper : x < hi
  · simp only [if_pos hupper, if_pos hrange]
  · -- A number that is not below the upper bound is above the lower one.
    have hhi := (h.numbers_of_le lo hi hle).2
    have hlower : lo < x := h.lt_of_lt_of_le hrange (h.le_of_not_lt hx hhi hupper)
    simp only [if_neg hupper, if_pos hlower, if_pos hrange]

/-- What is no number ends at the bound that comes first. -/
theorem bounded_apart (hrange : lo < hi) (hx : ¬ isNumber x) :
    greatest (least x hi) lo = hi ∧ least (greatest x lo) hi = lo := by
  have hle := h.le_of_lt hrange
  have hupper : ¬ x < hi := fun hlt => hx (h.numbers_of_le x hi (h.le_of_lt hlt)).1
  have hlower : ¬ lo < x := fun hlt => hx (h.numbers_of_le lo x (h.le_of_lt hlt)).2
  rw [h.greatest_least hle, h.least_greatest hle]
  simp only [if_neg hupper, if_neg hlower, if_pos hrange, and_self]

/-- If the bounds compare equal, everything ends at the one that comes last. -/
theorem bounded_level (hrange : lo ≤ hi) (heven : ¬ lo < hi) (x : α) :
    greatest (least x hi) lo = lo ∧ least (greatest x lo) hi = hi := by
  have hbetween : x < hi → ¬ lo < x := fun hupper hlower => heven (h.lt_trans hlower hupper)
  rw [h.greatest_least hrange, h.least_greatest hrange]
  by_cases hupper : x < hi
  · simp only [if_pos hupper, if_neg (hbetween hupper), if_neg heven, and_self]
  · simp only [if_neg hupper, if_neg heven, ite_self, and_self]

/-- Both orders end at values that compare equal, except for what is no number between bounds that
differ. -/
theorem bounded_alike_iff (hrange : lo ≤ hi) (x : α) :
    (greatest (least x hi) lo ≤ least (greatest x lo) hi ∧
      least (greatest x lo) hi ≤ greatest (least x hi) lo) ↔ isNumber x ∨ ¬ lo < hi := by
  by_cases hlt : lo < hi
  · by_cases hx : isNumber x
    · have hself := h.bounded_refl hrange x
      rw [← h.bounded_agree hlt hx]
      exact iff_of_true ⟨hself, hself⟩ (.inl hx)
    · obtain ⟨hupper, hlower⟩ := h.bounded_apart hlt hx
      rw [hupper, hlower]
      refine iff_of_false (fun hle => ((h.lt_iff lo hi).1 hlt).2 hle.1) ?_
      rintro (hnumber | heven)
      · exact hx hnumber
      · exact heven hlt
  · obtain ⟨hlower, hupper⟩ := h.bounded_level hrange hlt x
    obtain ⟨hlo, hhi⟩ := h.numbers_of_le lo hi hrange
    rw [hlower, hupper]
    exact iff_of_true ⟨hrange, h.le_of_not_lt hlo hhi hlt⟩ (.inr hlt)

end Scalar.Comparable

namespace Layered
variable {α : Type} [Scalar α]

theorem trend?_reverse (older : List α) (v w x y z : α) :
    trend? (older ++ [v, w, x, y, z]).reverse = some ((z - v) / 5.0) := by
  simp [trend?]

/-- The interval that a run leads to for a domain whose mean score neither rises nor falls. -/
theorem target_steady {threshold : α} {pace : Pace α} {level : RiskLevel} {calls : List (Call α)}
    {d : DomainId} {older : List α} {v w x y z : α} (m : DomainSummary α)
    (hscores : averages (run (fresh threshold pace level) calls).epochs d =
      older ++ [v, w, x, y, z])
    (hrise : ¬ 0.1 < (z - v) / 5.0) (hfall : ¬ (z - v) / 5.0 < -0.1) :
    let current := (configured (fresh threshold pace level) calls).pace
    (run (fresh threshold pace level) calls).state.target d m =
      Scalar.greatest (Scalar.least (current.shortened m.risk) current.max) current.min := by
  intro current
  have hpace : (run (fresh threshold pace level) calls).state.pace = current :=
    (run_parameters (fresh threshold pace level) calls).2.1
  have htrend : trend? ((run (fresh threshold pace level) calls).state.scores d) =
      some ((z - v) / 5.0) := by
    rw [run_scores, trend?_take, hscores, trend?_reverse]
  have hrisk : trendedRisk m ((z - v) / 5.0) = m.risk := by
    rw [trendedRisk, trendSlope, if_neg hrise, if_neg hfall]
  simp only [target, htrend, hrisk, hpace]

/-- For a domain whose mean score neither rises nor falls over its last five epochs, the layered
policy asks for the interval that the adaptive one asks for, if the base interval shortened by the
risk is a number and the range is not a single interval. If the quotient is no number, the layered
policy asks for the longest interval and the adaptive one for the shortest. If the shortest and the
longest interval compare equal, the layered policy asks for the first and the adaptive one for the
second. So the two intervals compare equal in the first case and the last one and in no other. -/
theorem targets_agree_iff (threshold : Float) (pace : Pace Float) (level : RiskLevel)
    (calls : List (Call Float)) (d : DomainId) (m : DomainSummary Float) (adjustments : Nat)
    {older : List Float} {v w x y z : Float}
    (hscores : averages (run (fresh threshold pace level) calls).epochs d =
      older ++ [v, w, x, y, z])
    (hrise : ¬ 0.1 < (z - v) / 5.0) (hfall : ¬ (z - v) / 5.0 < -0.1)
    (hrange : (configured (fresh threshold pace level) calls).pace.min ≤
      (configured (fresh threshold pace level) calls).pace.max) :
    let current := (configured (fresh threshold pace level) calls).pace
    let quotient := current.base / (1.0 + (m.meanScore + 0.1 * Scalar.ofCount m.highRisk))
    let layered := (run (fresh threshold pace level) calls).state.target d m
    let adaptive := (⟨current, adjustments⟩ : AdaptiveInterval Float).target m
    (current.min < current.max → Scalar.isNumber quotient → layered = adaptive) ∧
    (current.min < current.max → ¬ Scalar.isNumber quotient →
      layered = current.max ∧ adaptive = current.min) ∧
    (¬ current.min < current.max → layered = current.min ∧ adaptive = current.max) ∧
    ((layered ≤ adaptive ∧ adaptive ≤ layered) ↔
      Scalar.isNumber quotient ∨ ¬ current.min < current.max) := by
  intro current quotient layered adaptive
  have hα := Scalar.comparable_float
  have hlayered : layered =
      Scalar.greatest (Scalar.least quotient current.max) current.min :=
    target_steady m hscores hrise hfall
  have hadaptive : adaptive =
      Scalar.least (Scalar.greatest quotient current.min) current.max := rfl
  rw [hlayered, hadaptive]
  exact ⟨hα.bounded_agree, hα.bounded_apart, fun heven => hα.bounded_level hrange heven quotient,
    hα.bounded_alike_iff hrange quotient⟩

/-- One domain with a user whose score is minus one. -/
def trusted : Snapshot Float :=
  ((Snapshot.empty 0).addDomain ⟨1, "", [], [1], 0.0, 5.0⟩).addScore ⟨1, -1.0, .low, 0⟩

theorem targets_agree_standard :
    let calls := List.replicate 5 (Call.evaluate trusted)
    let m : DomainSummary Float := ⟨4, 0, 0.0, 30.0, 0.5, 2⟩
    (run (fresh 0.6 .standard .high) calls).state.target 1 m =
      (⟨.standard, 0⟩ : AdaptiveInterval Float).target m := by
  intro calls m
  have hscores : averages (run (fresh 0.6 .standard .high) calls).epochs 1 =
      [] ++ [-1.0, -1.0, -1.0, -1.0, -1.0] := by decide +kernel
  obtain ⟨hagree, -, -, -⟩ := targets_agree_iff 0.6 .standard .high calls 1 m 0 hscores
    (by decide +kernel) (by decide +kernel) (by decide +kernel)
  exact hagree (by decide +kernel) (by decide +kernel)

/-- If the base interval is zero, a mean score of minus one makes the quotient of zero by zero: the
two policies end at the two ends of the range. -/
theorem targets_at_both_ends :
    let pace : Pace Float := ⟨0.0, 5.0, 120.0⟩
    let r := run (fresh 0.6 pace .high) (List.replicate 5 (Call.evaluate trusted))
    pace.min ≤ pace.max ∧ averages r.epochs 1 = [-1.0, -1.0, -1.0, -1.0, -1.0] ∧
      ¬ (0.1 : Float) < (-1.0 - -1.0) / 5.0 ∧ ¬ ((-1.0 : Float) - -1.0) / 5.0 < -0.1 ∧
      ∃ m, trusted.summaries.find? 1 = some m ∧ r.state.target 1 m = 120.0 ∧
        (⟨pace, 0⟩ : AdaptiveInterval Float).target m = 5.0 := by
  exact ⟨by decide +kernel, by decide +kernel, by decide +kernel, by decide +kernel,
    ⟨1, 0, 0.0, 5.0, -1.0, 0⟩, by decide +kernel, by decide +kernel, by decide +kernel⟩

end Layered
end MovingTarget
