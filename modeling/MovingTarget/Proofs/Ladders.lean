import MovingTarget.Proofs.Settings.Validation
/-!
# Climbing a ladder

A ladder is a list of rungs, from the top down, each with a level and the threshold that a score has
to exceed to stand on it (`classify_eq_climb`). Whatever the thresholds are, in order or not and
numbers or not, a score is put at the highest level whose threshold it exceeds (`isGreatest_climb`),
so a higher score is never put lower (`climb_mono`). On the ladder of accepted settings the levels
of a regular user are intervals, one above the other (`classify_accepted_iff`).
-/
namespace MovingTarget
variable {α : Type}

/-! ## Rungs -/

/-- The levels above the lowest one with their thresholds. Exempt users have no middle level. -/
def RiskLadder.rungs (l : RiskLadder α) (u : UserId) : List (RiskLevel × α) :=
  if l.isExempt u then [(.critical, l.exemptCritical), (.high, l.exemptHigh)]
  else [(.critical, l.high), (.high, l.medium), (.medium, l.low)]

theorem RiskLadder.descending_rungs (l : RiskLadder α) (u : UserId) :
    ((l.rungs u).map (·.1)).Pairwise fun j k => k ≤ j := by
  rw [rungs]
  split
  · change [RiskLevel.critical, .high].Pairwise _
    decide
  · change [RiskLevel.critical, .high, .medium].Pairwise _
    decide

section Climbing
variable [Scalar α]

/-- The rungs of the ladder that is used when none is configured. -/
def fixedRungs : List (RiskLevel × α) := [(.critical, 0.85), (.high, 0.60), (.medium, 0.30)]

theorem descending_fixedRungs :
    ((fixedRungs : List (RiskLevel × α)).map (·.1)).Pairwise fun j k => k ≤ j := by
  change [RiskLevel.critical, .high, .medium].Pairwise _
  decide

/-- The levels that a score reaches: the lowest one, and those whose threshold it exceeds. -/
def reached (rungs : List (RiskLevel × α)) (score : α) : Set RiskLevel :=
  {k | k = .low ∨ ∃ t, (k, t) ∈ rungs ∧ t < score}

/-- The level of the first rung that a score stands on. -/
def climb (score : α) : List (RiskLevel × α) → RiskLevel
  | [] => .low
  | (k, t) :: rungs => if t < score then k else climb score rungs

theorem RiskLadder.classify_eq_climb (l : RiskLadder α) (u : UserId) (score : α) :
    l.classify u score = climb score (l.rungs u) := by
  rw [classify, rungs]
  split <;> rfl

theorem fixedLadder_eq_climb (score : α) : fixedLadder score = climb score fixedRungs := rfl

theorem isGreatest_climb {rungs : List (RiskLevel × α)}
    (h : (rungs.map (·.1)).Pairwise fun j k => k ≤ j) (score : α) :
    IsGreatest (reached rungs score) (climb score rungs) := by
  induction rungs with
  | nil =>
    refine ⟨.inl rfl, ?_⟩
    rintro k (rfl | ⟨t, hmem, -⟩)
    · exact Nat.le_refl _
    · cases hmem
  | cons rung rungs ih =>
    obtain ⟨top, threshold⟩ := rung
    obtain ⟨hbelow, hrest⟩ := List.pairwise_cons.1 h
    rw [climb]
    split
    · next hexceeds =>
      refine ⟨.inr ⟨threshold, List.mem_cons_self, hexceeds⟩, ?_⟩
      rintro k (rfl | ⟨t, hmem, -⟩)
      · exact Nat.zero_le _
      · rcases List.mem_cons.1 hmem with heq | hmem
        · cases heq
          exact Nat.le_refl _
        · exact hbelow k (List.mem_map_of_mem hmem)
    · next hnot =>
      -- A rung that the score does not stand on adds no level.
      have hsame : reached ((top, threshold) :: rungs) score = reached rungs score := by
        refine Set.ext fun k => or_congr_right (exists_congr fun t => ?_)
        rw [List.mem_cons]
        constructor
        · rintro ⟨heq | hmem, hlt⟩
          · cases heq
            exact absurd hlt hnot
          · exact ⟨hmem, hlt⟩
        · exact fun ⟨hmem, hlt⟩ => ⟨.inr hmem, hlt⟩
      rw [hsame]
      exact ih hrest

/-- A higher score stands on every rung that a lower one stands on. -/
theorem climb_mono (hα : Scalar.Comparable α) {rungs : List (RiskLevel × α)}
    (h : (rungs.map (·.1)).Pairwise fun j k => k ≤ j) {a b : α} (hab : a ≤ b) :
    climb a rungs ≤ climb b rungs := by
  refine (isGreatest_climb h b).2 ?_
  rcases (isGreatest_climb h a).1 with hlow | ⟨t, hmem, hlt⟩
  · exact .inl hlow
  · exact .inr ⟨t, hmem, hα.lt_of_lt_of_le hlt hab⟩

/-! ## Levels as intervals -/

/-- What is no number is put at the lowest level, like the scores up to the lowest threshold. -/
theorem Settings.classify_accepted_iff (hα : Scalar.Comparable α) {c : Settings α}
    (hc : c.validate = .ok ()) {u : UserId} (hu : u ∉ c.ladder.exempt) (score : α) :
    let level := c.ladder.build.classify u score
    (level = .low ↔ score ≤ c.ladder.low ∨ ¬ Scalar.isNumber score) ∧
    (level = .medium ↔ c.ladder.low < score ∧ score ≤ c.ladder.medium) ∧
    (level = .high ↔ c.ladder.medium < score ∧ score ≤ c.ladder.high) ∧
    (level = .critical ↔ c.ladder.high < score) := by
  intro level
  obtain ⟨⟨hlm, hmh⟩, -⟩ := validate_eq_ok_iff.1 hc
  have hregular : c.ladder.build.isExempt u = false :=
    Bool.eq_false_iff.2 fun h => hu ((contains_userSet _ u).1 h)
  have hlevel : level = climb score
      [(.critical, c.ladder.high), (.high, c.ladder.medium), (.medium, c.ladder.low)] := by
    rw [show level = _ from RiskLadder.classify_eq_climb _ u score, RiskLadder.rungs, hregular]
    rfl
  obtain ⟨hlow, hmedium⟩ := hα.numbers_of_le _ _ (hα.le_of_lt hlm)
  obtain ⟨-, hhigh⟩ := hα.numbers_of_le _ _ (hα.le_of_lt hmh)
  have hle : ∀ t, Scalar.isNumber t → (score ≤ t ↔ Scalar.isNumber score ∧ ¬ t < score) := by
    refine fun t ht => ⟨fun h => ?_, fun h => hα.le_of_not_lt ht h.1 h.2⟩
    exact ⟨(hα.numbers_of_le _ _ h).1, fun hlt => ((hα.lt_iff _ _).1 hlt).2 h⟩
  have hnumber : c.ladder.low < score → Scalar.isNumber score :=
    fun h => (hα.numbers_of_le _ _ (hα.le_of_lt h)).2
  -- The thresholds that a score exceeds are the lower ones.
  have hml : c.ladder.medium < score → c.ladder.low < score := hα.lt_trans hlm
  have hhm : c.ladder.high < score → c.ladder.medium < score := hα.lt_trans hmh
  rw [hlevel, hle _ hlow, hle _ hmedium, hle _ hhigh]
  simp only [climb]
  grind

end Climbing

/-- However the thresholds of a ladder compare, and whether they are numbers or not, every user is
put at the highest level whose threshold the score exceeds, or at the lowest one if it exceeds none;
so of two scores that compare, the greater one is not put lower. The same holds of the ladder that
is used when none is configured. On the ladder of accepted settings a regular user is at the lowest
level for scores up to the low threshold, at the next two from there up to the middle and up to the
high threshold, and at the highest level above that. A score that is no number is in none of these
intervals and is put at the lowest level. -/
theorem classified_by_highest_threshold [Scalar α] (hα : Scalar.Comparable α) :
    (∀ (l : RiskLadder α) (u : UserId),
      (∀ score, IsGreatest (reached (l.rungs u) score) (l.classify u score)) ∧
      ∀ a b, a ≤ b → l.classify u a ≤ l.classify u b) ∧
    (∀ score : α, IsGreatest (reached fixedRungs score) (fixedLadder score)) ∧
    (∀ a b : α, a ≤ b → fixedLadder a ≤ fixedLadder b) ∧
    ∀ c : Settings α, c.validate = .ok () → ∀ u ∉ c.ladder.exempt, ∀ score,
      let level := c.ladder.build.classify u score
      (level = .low ↔ score ≤ c.ladder.low ∨ ¬ Scalar.isNumber score) ∧
      (level = .medium ↔ c.ladder.low < score ∧ score ≤ c.ladder.medium) ∧
      (level = .high ↔ c.ladder.medium < score ∧ score ≤ c.ladder.high) ∧
      (level = .critical ↔ c.ladder.high < score) := by
  refine ⟨fun l u => ⟨fun score => ?_, fun a b hab => ?_⟩, fun score => ?_, fun a b hab => ?_,
    fun c hc u hu => Settings.classify_accepted_iff hα hc hu⟩
  · rw [l.classify_eq_climb]
    exact isGreatest_climb (l.descending_rungs u) score
  · rw [l.classify_eq_climb, l.classify_eq_climb]
    exact climb_mono hα (l.descending_rungs u) hab
  · rw [fixedLadder_eq_climb]
    exact isGreatest_climb descending_fixedRungs score
  · rw [fixedLadder_eq_climb, fixedLadder_eq_climb]
    exact climb_mono hα descending_fixedRungs hab

/-- Thresholds that fall, one of them no number, and thresholds that settings are accepted with. -/
theorem classified_by_highest_threshold_unordered :
    let l : RiskLadder Float := ⟨0.9, 0.0 / 0.0, 0.1, 0.95, 0.2, userSet [1]⟩
    let c : Settings Float := { Settings.standard with ladder := ⟨0.2, 0.4, 0.6, [1]⟩ }
    Scalar.Comparable Float ∧
      (0.05 : Float) ≤ 0.5 ∧ l.classify 1 0.05 ≤ l.classify 1 0.5 ∧ l.classify 1 0.5 = .critical ∧
      l.classify 2 0.05 ≤ l.classify 2 0.5 ∧ l.classify 2 0.5 = .critical ∧
      c.validate = .ok () ∧ 2 ∉ c.ladder.exempt ∧ c.ladder.build.classify 2 0.6 = .high ∧
      c.ladder.build.classify 2 (0.0 / 0.0) = .low := by
  intro l c
  have hα := Scalar.comparable_float
  have hab : (0.05 : Float) ≤ 0.5 := by decide +kernel
  have hc : c.validate = .ok () := by decide +kernel
  have hu : 2 ∉ c.ladder.exempt := by decide
  obtain ⟨hall, -, -, haccepted⟩ := classified_by_highest_threshold hα
  obtain ⟨-, -, hhigh, -⟩ := haccepted c hc 2 hu 0.6
  obtain ⟨hlow, -⟩ := haccepted c hc 2 hu (0.0 / 0.0)
  refine ⟨hα, hab, (hall l 1).2 _ _ hab, by decide +kernel, (hall l 2).2 _ _ hab, by decide +kernel,
    hc, hu, hhigh.2 ?_, hlow.2 (.inr ?_)⟩
  · decide +kernel
  · decide +kernel

end MovingTarget
