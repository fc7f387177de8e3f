import MovingTarget.Proofs.Intervals
import MovingTarget.Proofs.Layered.Locality
import MovingTarget.Proofs.Policies
import MovingTarget.Proofs.Snapshots
/-!
# Proposed intervals

Both policies propose an interval for a domain when the one that they ask for is further from the
current one than their tolerance. The adaptive policy asks for nothing outside the range between the
shortest and the longest interval. The layered one asks for the base interval until it has met the
domain in five epochs, whether the base interval is in the range or not, and then stays in the range
as well. None of this takes the quotient of base interval and risk for a number.
-/
namespace MovingTarget

/-! ## The intervals that a policy runs with -/

section Pace
variable {α : Type}

/-- The intervals that a call leaves a policy with. -/
def Pace.after (pace : Pace α) : Call α → Pace α
  | .configure given => pace.configure given
  | _ => pace

/-- The intervals that the configurations among some calls leave a policy with. -/
def Pace.tuned (pace : Pace α) (calls : List (Call α)) : Pace α :=
  calls.foldl Pace.after pace

/-- A policy whose intervals only configurations change runs with those configured. -/
theorem pace_run {σ : Type} [Policy σ α] (pace : σ → Pace α)
    (h : ∀ p (c : Call α), pace (Policy.after p c) = (pace p).after c) (p : σ)
    (calls : List (Call α)) : pace (run p calls).state = (pace p).tuned calls := by
  induction calls using List.reverseRecOn with
  | nil => rfl
  | append_singleton calls c ih =>
    rw [run_concat, state_after, h, ih, Pace.tuned, Pace.tuned, List.foldl_append]
    rfl

variable [Scalar α]

theorem AdaptiveInterval.run_pace (pace : Pace α) (calls : List (Call α)) :
    (run (fresh pace) calls).state.pace = pace.tuned calls := by
  refine pace_run AdaptiveInterval.pace (fun p c => ?_) (fresh pace) calls
  cases c <;> rfl

theorem Layered.run_pace (threshold : α) (pace : Pace α) (level : RiskLevel)
    (calls : List (Call α)) :
    (run (fresh threshold pace level) calls).state.pace = pace.tuned calls := by
  refine pace_run Layered.pace (fun p c => ?_) (fresh threshold pace level) calls
  cases c with
  | evaluate s => exact (evaluate_parameters p s).2.1
  | configure given => rfl
  | reset => rfl
  | event e => rfl

end Pace

/-! ## The adaptive policy -/

namespace AdaptiveInterval
variable {α : Type} [Scalar α]

/-- A domain gets a new interval if the one asked for is off by more than the tolerance. -/
theorem changes_iff (p : AdaptiveInterval α) (s : Snapshot α) (d : DomainId) (interval : α) :
    (∃ reason, .changeFrequency d interval reason ∈ (p.evaluate s).decisions) ↔
      ∃ x, s.domains.find? d = some x ∧ p.target (x.summary s) = interval ∧
        tolerance < Scalar.distance interval x.interval := by
  constructor
  · rintro ⟨reason, hmem⟩
    obtain ⟨e, he, hdecision⟩ := List.mem_map.1 hmem
    obtain ⟨hentry, hoff⟩ := List.mem_filter.1 he
    obtain ⟨rfl, rfl, -⟩ := Decision.changeFrequency.inj hdecision
    obtain ⟨x, hx, hm⟩ := Snapshot.mem_summaries_iff.1 hentry
    refine ⟨x, hx, congrArg p.target hm, ?_⟩
    rw [← hm] at hoff ⊢
    exact of_decide_eq_true hoff
  · rintro ⟨x, hx, rfl, hoff⟩
    have hentry : (d, x.summary s) ∈ s.summaries.entries :=
      Snapshot.mem_summaries_iff.2 ⟨x, hx, rfl⟩
    exact ⟨_, List.mem_map_of_mem (List.mem_filter.2 ⟨hentry, decide_eq_true hoff⟩)⟩

theorem target_mem (hα : Scalar.Comparable α) {p : AdaptiveInterval α}
    (hrange : p.pace.min ≤ p.pace.max) (m : DomainSummary α) :
    p.pace.min ≤ p.target m ∧ p.target m ≤ p.pace.max :=
  hα.least_greatest_mem hrange _

end AdaptiveInterval

/-! ## The layered policy -/

/-- A domain has as many mean scores as it has been present in epochs. -/
theorem length_averages {σ α : Type} [Scalar α] (es : List (Epoch σ α)) (d : DomainId) :
    (averages es d).length = es.countP fun e => d ∈ e.snapshot.domains.keys := by
  rw [averages, List.length_filterMap_eq_countP]
  refine List.countP_congr fun e _ => ?_
  rw [Option.isSome_map, Option.isSome_iff_exists, decide_eq_true_eq,
    Snapshot.mem_keys_iff_summary]

namespace Layered
variable {α : Type} [Scalar α]

theorem trend?_eq_none_iff {l : List α} : trend? l = none ↔ l.length < 5 := by
  rcases l with _ | ⟨_, _ | ⟨_, _ | ⟨_, _ | ⟨_, _ | ⟨_, _⟩⟩⟩⟩⟩ <;> simp [trend?]

theorem SameAt.target {d : DomainId} {p q : Layered α} (h : SameAt d p q) (m : DomainSummary α) :
    p.target d m = q.target d m := by
  rw [Layered.target, Layered.target, h.scores, h.pace]

/-- What an epoch asks for is what the state that it leaves behind asks for. -/
theorem target_evaluate {s : Snapshot α} {d : DomainId} {m : DomainSummary α}
    (h : s.summaries.find? d = some m) (p : Layered α) :
    (p.evaluate s).next.target d m = (p.remember d m.meanScore).target d m := by
  have hscores : (assess s p (d, m)).next.scores d = (p.remember d m.meanScore).scores d := by
    rw [scores_remember p (d, m), scores, assess_next, Table.find?_insert, if_pos rfl]
    rfl
  have hpace : (assess s p (d, m)).next.pace = p.pace := by rw [assess_next]
  rw [(evaluate_at h p).target, target, target, hscores, hpace]
  rfl

theorem mem_routine_changeFrequency_iff {p : Layered α} {s : Snapshot α}
    {e : DomainId × DomainSummary α} {d : DomainId} {interval : α} :
    (∃ reason, .changeFrequency d interval reason ∈ p.routine s e) ↔
      e.1 = d ∧ (p.remember e.1 e.2.meanScore).target e.1 e.2 = interval ∧
        tolerance < Scalar.distance interval e.2.interval := by
  rw [routine, shuffle_decisions, adjust_decisions]
  constructor
  · rintro ⟨reason, hmem⟩
    rcases List.mem_append.1 hmem with hshuffle | hadjust
    · split at hshuffle <;> simp at hshuffle
    · split at hadjust
      · next hoff =>
        obtain ⟨rfl, rfl, -⟩ := Decision.changeFrequency.inj (List.mem_singleton.1 hadjust)
        exact ⟨rfl, rfl, hoff⟩
      · cases hadjust
  · rintro ⟨rfl, rfl, hoff⟩
    rw [if_pos hoff]
    exact ⟨_, List.mem_append_right _ (List.mem_singleton_self _)⟩

/-- A domain gets a new interval if the one asked for, its newest mean score included, is off by
more than the tolerance. -/
theorem changes_iff (p : Layered α) (s : Snapshot α) (d : DomainId) (interval : α) :
    (∃ reason, .changeFrequency d interval reason ∈ (p.evaluate s).decisions) ↔
      ∃ x, s.domains.find? d = some x ∧ (p.evaluate s).next.target d (x.summary s) = interval ∧
        tolerance < Scalar.distance interval x.interval := by
  have hpaces : ∀ reason, (Decision.changeFrequency d interval reason).paces d = true :=
    fun _ => decide_eq_true rfl
  have hown : (∃ reason, .changeFrequency d interval reason ∈ (p.evaluate s).decisions) ↔
      ∃ reason, .changeFrequency d interval reason ∈
        (s.summaries.find? d).elim [] fun m => p.routine s (d, m) := by
    rw [← filter_paces_decisions]
    simp only [List.mem_filter, hpaces, and_true]
  rw [hown]
  cases hx : s.domains.find? d with
  | none =>
    rw [s.find?_summaries, hx]
    simp
  | some x =>
    have hm : s.summaries.find? d = some (x.summary s) := by
      rw [s.find?_summaries, hx, Option.map_some]
    simp only [hm, Option.elim_some, mem_routine_changeFrequency_iff, true_and, Option.some.injEq,
      exists_eq_left', target_evaluate hm]
    rfl

/-- A run asks for the base interval for a domain met in fewer than five epochs, and for a shortened
one, brought into the range, for any other. -/
theorem target_run (threshold : α) (pace : Pace α) (level : RiskLevel) (calls : List (Call α))
    (d : DomainId) (m : DomainSummary α) :
    let r := run (fresh threshold pace level) calls
    let current := pace.tuned calls
    let met := r.epochs.countP fun e => d ∈ e.snapshot.domains.keys
    (met < 5 → r.state.target d m = current.base) ∧
      (5 ≤ met → ∃ risk, r.state.target d m =
        Scalar.greatest (Scalar.least (current.shortened risk) current.max) current.min) := by
  intro r current met
  have hpace : r.state.pace = current := run_pace threshold pace level calls
  have hlength : (averages r.epochs d).reverse.length = met := by
    rw [List.length_reverse]
    exact length_averages r.epochs d
  have htrend : trend? (r.state.scores d) = trend? (averages r.epochs d).reverse := by
    have hscores := run_scores threshold pace level calls d
    dsimp only at hscores
    rw [hscores, trend?_take]
  constructor
  · intro hfew
    have hnone := trend?_eq_none_iff.2 (hlength ▸ hfew)
    rw [target, htrend, hnone]
    exact congrArg Pace.base hpace
  · intro hmany
    obtain ⟨trend, hsome⟩ : ∃ trend, trend? (averages r.epochs d).reverse = some trend := by
      refine Option.ne_none_iff_exists'.1 fun hnone => ?_
      have hfew := trend?_eq_none_iff.1 hnone
      omega
    refine ⟨trendedRisk m trend, ?_⟩
    rw [target, htrend, hsome]
    exact congrArg (fun q : Pace α => Scalar.greatest (Scalar.least (q.shortened _) q.max) q.min)
      hpace

end Layered

/-! ## Both policies -/

open Scalar in
/-- In every run, and whatever the scores in the snapshot, the adaptive policy changes the interval
of a domain if the one that it asks for is more than a second away from it, and the layered policy
if its own is more than two seconds away. What the adaptive policy changes it to is in the range.
The layered policy changes it to exactly the base interval while the domain has been present in
fewer than five epochs since the last reset, this one included, and to an interval in the range from
the fifth on. -/
theorem changes_in_range (threshold : Float) (pace : Pace Float) (level : RiskLevel)
    (calls : List (Call Float)) (s : Snapshot Float)
    (hrange : (pace.tuned calls).min ≤ (pace.tuned calls).max) :
    let current := pace.tuned calls
    let adaptive := (run (AdaptiveInterval.fresh pace) calls).state
    let layered := (run (Layered.fresh threshold pace level) calls).state
    let after := run (Layered.fresh threshold pace level) (calls ++ [.evaluate s])
    let present d := after.epochs.countP fun e => d ∈ e.snapshot.domains.keys
    (∀ d interval,
      (∃ reason, .changeFrequency d interval reason ∈ (adaptive.evaluate s).decisions) ↔
        ∃ x, s.domains.find? d = some x ∧ adaptive.target (x.summary s) = interval ∧
          1.0 < distance interval x.interval) ∧
    (∀ d interval reason, .changeFrequency d interval reason ∈ (adaptive.evaluate s).decisions →
      current.min ≤ interval ∧ interval ≤ current.max) ∧
    (∀ d interval,
      (∃ reason, .changeFrequency d interval reason ∈ (layered.evaluate s).decisions) ↔
        ∃ x, s.domains.find? d = some x ∧ after.state.target d (x.summary s) = interval ∧
          2.0 < distance interval x.interval) ∧
    (∀ d interval reason, .changeFrequency d interval reason ∈ (layered.evaluate s).decisions →
      (present d < 5 → interval = current.base) ∧
        (5 ≤ present d → current.min ≤ interval ∧ interval ≤ current.max)) := by
  intro current adaptive layered after present
  have hα := comparable_float
  have hadaptive := adaptive.changes_iff s
  have hlayered := layered.changes_iff s
  have hnext : (layered.evaluate s).next = after.state := by
    change _ = (run (Layered.fresh threshold pace level) (calls ++ [.evaluate s])).state
    rw [run_concat, state_after]
    rfl
  have htuned : pace.tuned (calls ++ [.evaluate s]) = current := by
    rw [Pace.tuned, List.foldl_append]
    rfl
  rw [hnext] at hlayered
  refine ⟨hadaptive, ?_, hlayered, ?_⟩
  · intro d interval reason hmem
    obtain ⟨x, -, rfl, -⟩ := (hadaptive d interval).1 ⟨reason, hmem⟩
    have hpace : adaptive.pace = current := AdaptiveInterval.run_pace pace calls
    rw [← hpace]
    exact AdaptiveInterval.target_mem hα (hpace ▸ hrange) (x.summary s)
  · intro d interval reason hmem
    obtain ⟨x, -, rfl, -⟩ := (hlayered d interval).1 ⟨reason, hmem⟩
    have htarget := Layered.target_run threshold pace level (calls ++ [.evaluate s]) d (x.summary s)
    rw [htuned] at htarget
    refine ⟨htarget.1, fun hmany => ?_⟩
    obtain ⟨risk, hrisk⟩ := htarget.2 hmany
    rw [hrisk]
    exact hα.greatest_least_mem hrange _

/-- The range ends below the base interval, and the mean score makes the risk minus one. In its
first epoch the layered policy asks for the base interval all the same, and in its fifth for the
longest one; the adaptive policy asks for that at once. -/
theorem changes_in_range_trusted :
    let pace : Pace Float := ⟨30.0, 5.0, 20.0⟩
    let layered earlier := (run (Layered.fresh 0.6 pace .high)
      (List.replicate earlier (.evaluate Layered.trusted))).state
    let adaptive := (run (AdaptiveInterval.fresh pace) []).state
    let proposed (interval : Float) (ds : List (Decision Float)) :=
      ∃ reason, .changeFrequency 1 interval reason ∈ ds
    pace.min ≤ pace.max ∧
      proposed 20.0 (adaptive.evaluate Layered.trusted).decisions ∧
      proposed 30.0 ((layered 0).evaluate Layered.trusted).decisions ∧
      proposed 20.0 ((layered 4).evaluate Layered.trusted).decisions := by
  intro pace layered adaptive proposed
  have hrange : pace.min ≤ pace.max := by decide +kernel
  let home : Domain Float := ⟨1, "", [], [1], 0.0, 5.0⟩
  have hhome : Layered.trusted.domains.find? 1 = some home := by decide +kernel
  obtain ⟨hadaptive, -, hfirst, -⟩ :=
    changes_in_range 0.6 pace .high [] Layered.trusted hrange
  obtain ⟨-, -, hfifth, -⟩ :=
    changes_in_range 0.6 pace .high (List.replicate 4 (.evaluate Layered.trusted)) Layered.trusted
      hrange
  refine ⟨hrange, (hadaptive 1 20.0).2 ?_, (hfirst 1 30.0).2 ?_, (hfifth 1 20.0).2 ?_⟩
  · exact ⟨home, hhome, by decide +kernel, by decide +kernel⟩
  · exact ⟨home, hhome, by decide +kernel, by decide +kernel⟩
  · exact ⟨home, hhome, by decide +kernel, by decide +kernel⟩

end MovingTarget
