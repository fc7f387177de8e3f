import MovingTarget.Proofs.Policies
import MovingTarget.Proofs.Rationals
import MovingTarget.Proofs.Snapshots
/-!
# What a mean score is made of

Read with exact arithmetic, the mean of some scores is between the least and the greatest of them
and does not depend on their order (`le_mean`, `mean_le`, `mean_perm`). The mean score of a domain
is that of the scores recorded for its members, so it exceeds a threshold only if one of these does,
and without such a score no policy shuffles the domain for its score.
-/
namespace MovingTarget

/-! ## Means -/

section Means
variable {xs ys : List ℚ}

theorem mean_eq_div (xs : List ℚ) : mean xs = xs.sum / xs.length := by
  cases xs with
  | nil =>
    rw [List.sum_nil, zero_div]
    exact Scalar.rat_zero
  | cons x xs =>
    rw [List.sum_eq_foldl, ← Scalar.rat_zero]
    rfl

theorem mean_perm (h : xs.Perm ys) : mean xs = mean ys := by
  rw [mean_eq_div, mean_eq_div, h.sum_eq, h.length_eq]

theorem le_mean (hne : xs ≠ []) {lo : ℚ} (h : ∀ x ∈ xs, lo ≤ x) : lo ≤ mean xs := by
  have hpos : (0 : ℚ) < xs.length := Nat.cast_pos.2 (List.length_pos_iff.2 hne)
  rw [mean_eq_div, le_div_iff₀ hpos, mul_comm, ← nsmul_eq_mul]
  exact List.card_nsmul_le_sum xs lo h

theorem mean_le (hne : xs ≠ []) {hi : ℚ} (h : ∀ x ∈ xs, x ≤ hi) : mean xs ≤ hi := by
  have hpos : (0 : ℚ) < xs.length := Nat.cast_pos.2 (List.length_pos_iff.2 hne)
  rw [mean_eq_div, div_le_iff₀ hpos, mul_comm, ← nsmul_eq_mul]
  exact List.sum_le_card_nsmul xs hi h

end Means

/-! ## The scores of the members -/

namespace Snapshot
variable {α : Type}

/-- The scores that are recorded for the members of a domain. -/
def recorded (s : Snapshot α) (x : Domain α) : Set α :=
  {score | ∃ u ∈ x.users, ∃ r, s.scores.find? u = some r ∧ r.score = score}

theorem mem_recorded_iff {s : Snapshot α} {x : Domain α} {score : α} :
    score ∈ s.recorded x ↔ score ∈ (s.memberScores x).map (·.score) := by
  rw [memberScores, List.mem_map]
  simp only [List.mem_filterMap]
  constructor
  · rintro ⟨u, hu, r, hr, rfl⟩
    exact ⟨r, ⟨u, hu, hr⟩, rfl⟩
  · rintro ⟨r, ⟨u, hu, hr⟩, rfl⟩
    exact ⟨u, hu, r, hr, rfl⟩

theorem recorded_nonempty_iff {s : Snapshot α} {x : Domain α} :
    (s.recorded x).Nonempty ↔ (s.memberScores x).map (·.score) ≠ [] := by
  constructor
  · rintro ⟨score, hs⟩
    exact List.ne_nil_of_mem (mem_recorded_iff.1 hs)
  · intro hne
    obtain ⟨score, hs⟩ := List.exists_mem_of_ne_nil _ hne
    exact ⟨score, mem_recorded_iff.2 hs⟩

theorem finite_recorded (s : Snapshot α) (x : Domain α) : (s.recorded x).Finite :=
  ((s.memberScores x).map (·.score)).finite_toSet.subset fun _ => mem_recorded_iff.1

/-- No member of the domain has a recorded score above the threshold. -/
def NoneAbove [LE α] (s : Snapshot α) (k : DomainId) (threshold : α) : Prop :=
  ∀ x, s.domains.find? k = some x → ∀ score ∈ s.recorded x, score ≤ threshold

instance [LE α] [DecidableLE α] (s : Snapshot α) (k : DomainId) (threshold : α) :
    Decidable (s.NoneAbove k threshold) :=
  decidable_of_iff
    (∀ x ∈ (s.domains.find? k).toList, ∀ r ∈ s.memberScores x, r.score ≤ threshold) <| by
      simp only [NoneAbove, mem_recorded_iff, Option.mem_toList, List.forall_mem_map]

end Snapshot

namespace Domain
variable {s : Snapshot ℚ} {x : Domain ℚ}

theorem meanScore_of_recorded_eq_empty (h : s.recorded x = ∅) : (x.summary s).meanScore = 0 := by
  have hnil : (s.memberScores x).map (·.score) = [] := by
    by_contra hne
    exact (Snapshot.recorded_nonempty_iff.2 hne).ne_empty h
  change mean ((s.memberScores x).map (·.score)) = 0
  rw [hnil, mean_eq_div, List.sum_nil, zero_div]

theorem le_meanScore (hne : (s.recorded x).Nonempty) {lo : ℚ}
    (h : ∀ score ∈ s.recorded x, lo ≤ score) : lo ≤ (x.summary s).meanScore :=
  le_mean (Snapshot.recorded_nonempty_iff.1 hne) fun score hs =>
    h score (Snapshot.mem_recorded_iff.2 hs)

theorem meanScore_le (hne : (s.recorded x).Nonempty) {hi : ℚ}
    (h : ∀ score ∈ s.recorded x, score ≤ hi) : (x.summary s).meanScore ≤ hi :=
  mean_le (Snapshot.recorded_nonempty_iff.1 hne) fun score hs =>
    h score (Snapshot.mem_recorded_iff.2 hs)

/-- Neither the order of the members nor members without a score make a difference. -/
theorem meanScore_perm {extra users : List UserId} (hextra : ∀ u ∈ extra, s.scores.find? u = none)
    (hperm : users.Perm (x.users ++ extra)) :
    ({ x with users }.summary s).meanScore = (x.summary s).meanScore := by
  have hnone : extra.filterMap s.scores.find? = [] := List.filterMap_eq_nil_iff.2 hextra
  have hscores := hperm.filterMap s.scores.find?
  rw [List.filterMap_append, hnone, List.append_nil] at hscores
  exact mean_perm (hscores.map _)

end Domain

/-! ## Shuffles for a score -/

/-- A domain without a score above the threshold does not exceed it on the mean. -/
theorem Snapshot.NoneAbove.meanScore_le {s : Snapshot ℚ} {k : DomainId} {threshold : ℚ}
    (h : s.NoneAbove k threshold) (hthreshold : 0 ≤ threshold) {m : DomainSummary ℚ}
    (hm : s.summaries.find? k = some m) : m.meanScore ≤ threshold := by
  rw [s.find?_summaries] at hm
  obtain ⟨x, hx, rfl⟩ := Option.map_eq_some_iff.1 hm
  rcases (s.recorded x).eq_empty_or_nonempty with hnone | hsome
  · rwa [Domain.meanScore_of_recorded_eq_empty hnone]
  · exact Domain.meanScore_le hsome (h x hx)

theorem ScoreThreshold.above_of_shuffles {α : Type} [Scalar α] {p : ScoreThreshold α}
    {s : Snapshot α} {k : DomainId} {reason : String}
    (h : .triggerShuffle k .scoreDriven reason ∈ (p.evaluate s).decisions) :
    ∃ m, s.summaries.find? k = some m ∧ p.threshold < m.meanScore := by
  obtain ⟨e, he, hdecision⟩ := List.mem_map.1 h
  obtain ⟨hentry, habove⟩ := List.mem_filter.1 he
  obtain ⟨rfl, -, -⟩ := Decision.triggerShuffle.inj hdecision
  exact ⟨e.2, Table.find?_eq_some_iff.2 hentry, of_decide_eq_true habove⟩

theorem Layered.above_of_shuffles {α : Type} [Scalar α] {p : Layered α} {s : Snapshot α}
    {k : DomainId} {reason : String}
    (h : .triggerShuffle k .scoreDriven reason ∈ (p.evaluate s).decisions) :
    ∃ m, s.summaries.find? k = some m ∧ ¬ m.meanScore ≤ p.threshold := by
  have hany := any_shuffles_iff.2 ⟨reason, h⟩
  rw [evaluate_shuffles_scoreDriven, Option.any_eq_true] at hany
  obtain ⟨m, hm, hdue⟩ := hany
  rw [shuffleDue, Bool.and_eq_true, Bool.not_eq_true', decide_eq_false_iff_not] at hdue
  exact ⟨m, hm, hdue.1⟩

/-- The mean score of a domain is between the least and the greatest score recorded for its members,
and zero if there is none; rearranging the members or adding some without a score leaves it as it
is. So in any epoch of any run, as long as the threshold is not negative, neither of the policies
that shuffle for a score shuffles a domain none of whose members has a score above the threshold. -/
theorem shuffled_for_a_recorded_score :
    (∀ (s : Snapshot ℚ) (x : Domain ℚ),
      let scores := s.recorded x
      let meanScore := (x.summary s).meanScore
      (scores = ∅ → meanScore = 0) ∧
      (scores.Nonempty → ∃ lo hi, IsLeast scores lo ∧ IsGreatest scores hi ∧
        lo ≤ meanScore ∧ meanScore ≤ hi) ∧
      ∀ extra users, (∀ u ∈ extra, s.scores.find? u = none) → users.Perm (x.users ++ extra) →
        ({ x with users }.summary s).meanScore = meanScore) ∧
    (∀ (threshold : ℚ) (calls : List (Call ℚ)),
      ∀ e ∈ (run (ScoreThreshold.fresh threshold) calls).epochs, 0 ≤ e.before.threshold →
      ∀ k, e.snapshot.NoneAbove k e.before.threshold →
      ∀ reason, .triggerShuffle k .scoreDriven reason ∉ e.decisions) ∧
    (∀ (threshold : ℚ) (pace : Pace ℚ) (level : RiskLevel) (calls : List (Call ℚ)),
      ∀ e ∈ (run (Layered.fresh threshold pace level) calls).epochs, 0 ≤ e.before.threshold →
      ∀ k, e.snapshot.NoneAbove k e.before.threshold →
      ∀ reason, .triggerShuffle k .scoreDriven reason ∉ e.decisions) := by
  refine ⟨fun s x => ⟨Domain.meanScore_of_recorded_eq_empty, fun hsome => ?_,
    fun extra users => Domain.meanScore_perm⟩, ?_, ?_⟩
  · obtain ⟨lo, hlo, hleast⟩ := Set.exists_min_image _ id (s.finite_recorded x) hsome
    obtain ⟨hi, hhi, hgreatest⟩ := Set.exists_max_image _ id (s.finite_recorded x) hsome
    exact ⟨lo, hi, ⟨hlo, hleast⟩, ⟨hhi, hgreatest⟩, Domain.le_meanScore hsome hleast,
      Domain.meanScore_le hsome hgreatest⟩
  · intro threshold calls e _ hthreshold k hnone reason hmem
    obtain ⟨m, hm, habove⟩ := ScoreThreshold.above_of_shuffles hmem
    exact absurd (hnone.meanScore_le hthreshold hm) (not_le.2 habove)
  · intro threshold pace level calls e _ hthreshold k hnone reason hmem
    obtain ⟨m, hm, habove⟩ := Layered.above_of_shuffles hmem
    exact habove (hnone.meanScore_le hthreshold hm)

/-- User 2 is listed twice, and user 3 has no score. The mean score is below the threshold that no
score is above, and above another one. -/
theorem shuffled_for_a_recorded_score_mixed :
    let x : Domain ℚ := ⟨1, "", [], [1, 2, 3, 2], 0, 30⟩
    let s := ((Snapshot.empty 10000000000).addDomain x).addScore ⟨1, 1 / 5, .low, 0⟩
      |>.addScore ⟨2, 4 / 5, .high, 0⟩
    let shuffled (ds : List (Decision ℚ)) := ∃ reason, .triggerShuffle 1 .scoreDriven reason ∈ ds
    (x.summary s).meanScore = 3 / 5 ∧
      ({ x with users := [4, 2, 1, 3, 2] }.summary s).meanScore = (x.summary s).meanScore ∧
      s.NoneAbove 1 (4 / 5) ∧
      ¬ shuffled ((ScoreThreshold.fresh (4 / 5)).evaluate s).decisions ∧
      ¬ shuffled ((Layered.fresh (4 / 5) .standard .high).evaluate s).decisions ∧
      shuffled ((ScoreThreshold.fresh (1 / 2)).evaluate s).decisions ∧
      shuffled ((Layered.fresh (1 / 2) .standard .high).evaluate s).decisions := by
  intro x s shuffled
  obtain ⟨hmean, hplain, hlayered⟩ := shuffled_for_a_recorded_score
  have hthreshold : (0 : ℚ) ≤ 4 / 5 := by norm_num
  have hnone : s.NoneAbove 1 (4 / 5) := by decide +kernel
  have hextra : ∀ u ∈ [4], s.scores.find? u = none :=
    List.forall_mem_singleton.2 (by decide +kernel)
  refine ⟨by decide +kernel, (hmean s x).2.2 [4] _ hextra (by decide +kernel), hnone, ?_, ?_,
    any_shuffles_iff.1 (by decide +kernel), any_shuffles_iff.1 (by decide +kernel)⟩
  · rintro ⟨reason, hmem⟩
    exact hplain (4 / 5) [.evaluate s] ⟨.fresh (4 / 5), s⟩ (List.mem_singleton.2 rfl) hthreshold 1
      hnone reason hmem
  · rintro ⟨reason, hmem⟩
    exact hlayered (4 / 5) .standard .high [.evaluate s] ⟨.fresh (4 / 5) .standard .high, s⟩
      (List.mem_singleton.2 rfl) hthreshold 1 hnone reason hmem

end MovingTarget
