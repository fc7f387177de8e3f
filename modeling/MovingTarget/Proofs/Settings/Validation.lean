import MovingTarget.Proofs.Comparisons
import MovingTarget.Proofs.Tables
import MovingTarget.Settings.Basic
/-!
# What accepted settings promise

Accepted settings have their thresholds, intervals and shares in order (`validate_eq_ok_iff`). The
thresholds for exempt users are no settings and are not compared with the others: an exempt user is
never put at a higher level than a regular one with the same score if and only if the configured
middle and high thresholds do not exceed them (`lenient_iff`).
-/
namespace MovingTarget

/-! ## The order of settings -/

section Validation
variable {α : Type} [Scalar α]

theorem Settings.validate_eq_ok_iff {c : Settings α} :
    c.validate = .ok () ↔
      (c.ladder.low < c.ladder.medium ∧ c.ladder.medium < c.ladder.high) ∧
      c.policy.pace.min ≤ c.policy.pace.max ∧
      (0.0 ≤ c.scorer.alpha ∧ c.scorer.alpha ≤ 1.0) ∧
      (0.0 ≤ c.pools.ratio ∧ c.pools.ratio ≤ 1.0) := by
  unfold validate inUnit
  dsimp only
  -- Every check that fails refutes its part; at the end all of them have passed.
  repeat' split
  case isFalse.isFalse.isFalse.isFalse => simp_all
  all_goals
    refine iff_of_false nofun fun h => ?_
    simp_all

end Validation

/-! ## Exempt users -/

theorem contains_userSet (users : List UserId) (u : UserId) :
    (userSet users).contains u = true ↔ u ∈ users := by
  rw [Table.contains, userSet, Table.find?_ofList, ← List.map_reverse, List.lookup_isSome_iff]
  simp

namespace RiskLadder
variable {α : Type} [Scalar α]

/-- At one score, in terms of the thresholds that the score exceeds. -/
theorem lenient_at_iff {l : RiskLadder α} (h : Scalar.Comparable α) (hl : l.medium < l.high)
    {v u : UserId} (hv : l.isExempt v = true) (hu : l.isExempt u = false) (s : α) :
    l.classify v s ≤ l.classify u s ↔
      (l.exemptHigh < s → l.medium < s) ∧ (l.exemptCritical < s → l.high < s) := by
  have hmedium : l.high < s → l.medium < s := h.lt_trans hl
  change (l.classify v s).rank ≤ (l.classify u s).rank ↔ _
  rw [classify, classify, if_pos hv, if_neg (Bool.eq_false_iff.1 hu)]
  clear h hl hv hu
  repeat' split
  all_goals
    simp only [RiskLevel.rank]
    grind

/-- At every score, in terms of the ladder alone. -/
theorem lenient_iff {l : RiskLadder α} (h : Scalar.Comparable α) (hl : l.medium < l.high)
    (hhigh : Scalar.isNumber l.exemptHigh) (hcritical : Scalar.isNumber l.exemptCritical)
    {v u : UserId} (hv : l.isExempt v = true) (hu : l.isExempt u = false) :
    (∀ s, l.classify v s ≤ l.classify u s) ↔
      l.medium ≤ l.exemptHigh ∧ l.high ≤ l.exemptCritical := by
  obtain ⟨hm, hh⟩ := h.numbers_of_le _ _ (h.le_of_lt hl)
  simp only [lenient_at_iff h hl hv hu]
  constructor
  · intro hall
    -- A threshold above the one for exempt users is itself a score that tells them apart.
    constructor
    · by_contra hnot
      exact h.lt_irrefl _ ((hall l.medium).1 (h.lt_of_not_le hm hhigh hnot))
    · by_contra hnot
      exact h.lt_irrefl _ ((hall l.high).2 (h.lt_of_not_le hh hcritical hnot))
  · rintro ⟨hle₁, hle₂⟩ s
    exact ⟨h.lt_of_le_of_lt hle₁, h.lt_of_le_of_lt hle₂⟩

end RiskLadder

namespace Settings

/-- Under accepted settings an exempt user is put at a higher level than a regular one exactly at
the scores that exceed a threshold for exempt users but not the configured one for the same level.
So no score does that if and only if the middle threshold is at most 0.85 and the high one at most
0.95. -/
theorem exempt_lenient_iff {c : Settings Float} (hc : c.validate = .ok ()) {v u : UserId}
    (hv : v ∈ c.ladder.exempt) (hu : u ∉ c.ladder.exempt) :
    (∀ s, c.ladder.build.classify v s ≤ c.ladder.build.classify u s ↔
      (0.85 < s → c.ladder.medium < s) ∧ (0.95 < s → c.ladder.high < s)) ∧
    ((∀ s, c.ladder.build.classify v s ≤ c.ladder.build.classify u s) ↔
      c.ladder.medium ≤ 0.85 ∧ c.ladder.high ≤ 0.95) := by
  have hl : c.ladder.build.medium < c.ladder.build.high := (validate_eq_ok_iff.1 hc).1.2
  have hv' : c.ladder.build.isExempt v = true := (contains_userSet _ v).2 hv
  have hu' : c.ladder.build.isExempt u = false :=
    Bool.eq_false_iff.2 fun h => hu ((contains_userSet _ u).1 h)
  have hhigh : Scalar.isNumber (0.85 : Float) = true := by decide +kernel
  have hcritical : Scalar.isNumber (0.95 : Float) = true := by decide +kernel
  have h := Scalar.comparable_float
  exact ⟨RiskLadder.lenient_at_iff h hl hv' hu',
    RiskLadder.lenient_iff h hl hhigh hcritical hv' hu'⟩

/-- The standard thresholds are lenient on an exempt user. -/
theorem exempt_lenient_standard :
    let c : Settings Float :=
      { standard with ladder := { LadderSettings.standard with exempt := [1] } }
    c.validate = .ok () ∧ 1 ∈ c.ladder.exempt ∧ 2 ∉ c.ladder.exempt ∧
      ∀ s, c.ladder.build.classify 1 s ≤ c.ladder.build.classify 2 s := by
  intro c
  have hc : c.validate = .ok () := by decide +kernel
  have hv : 1 ∈ c.ladder.exempt := by decide
  have hu : 2 ∉ c.ladder.exempt := by decide
  exact ⟨hc, hv, hu, (exempt_lenient_iff hc hv hu).2.2 (by decide +kernel)⟩

/-- Accepted settings whose thresholds exceed the ones for exempt users, and a score at which the
exempt user 1 is put above the regular user 2. -/
theorem exempt_above_regular :
    let c : Settings Float := { standard with ladder := ⟨0.3, 0.9, 0.97, [1]⟩ }
    c.validate = .ok () ∧ 1 ∈ c.ladder.exempt ∧ 2 ∉ c.ladder.exempt ∧
      ¬ c.ladder.build.classify 1 0.96 ≤ c.ladder.build.classify 2 0.96 := by
  decide +kernel

end Settings
end MovingTarget
