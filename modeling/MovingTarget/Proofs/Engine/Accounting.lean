import Mathlib.Algebra.BigOperators.Group.List.Basic
import MovingTarget.Proofs.Engine.Figures
import MovingTarget.Proofs.Engine.History
import MovingTarget.Proofs.Policies
/-!
# Where the decisions of a policy go

Whatever a policy proposes is either returned or dropped, and both are counted. With the answers to
events, what was returned is what an engine says it decided.
-/
namespace MovingTarget
variable {σ α : Type} [Scalar α] [Policy σ α]

/-- Every entry of the log was returned by an epoch or answered an event. -/
theorem length_decisionLog (r : Run (Engine σ α) α) :
    r.decisionLog.length = (r.epochs.map (·.decisions.length)).sum + r.replies.length := by
  obtain ⟨q, turns⟩ := r
  simp only [Run.decisionLog, Run.epochs, Run.replies]
  induction turns with
  | nil => rfl
  | cons t turns ih =>
    obtain ⟨e, c⟩ := t
    rw [List.flatMap_cons, List.length_append, ih]
    cases c with
    | evaluate s =>
      simp only [Turn.records, Turn.epoch?, Turn.reply?, List.length_map, List.filterMap_cons,
        List.map_cons, List.sum_cons]
      exact (Nat.add_assoc _ _ _).symm
    | configure given => exact Nat.zero_add _
    | reset => exact Nat.zero_add _
    | event x =>
      simp only [Turn.records, Turn.epoch?, Turn.reply?, List.filterMap_cons, List.length_map]
      cases (Policy.onEvent e x).2 with
      | none => exact Nat.zero_add _
      | some d =>
        rw [Option.toList_some, List.length_singleton, List.length_cons]
        omega

namespace Engine

theorem tallies_evaluations : Tallies (fun e : Engine σ α => e.evaluations) fun _ => 1 where
  evaluate _ _ := rfl
  configure _ _ := rfl
  event e x := by
    change (e.handleEvent x).1.evaluations = e.evaluations
    rw [handleEvent_eq]
  reset _ := rfl

theorem run_evaluations (policy : σ) (tools : Toolkit α) (cap : Nat) (calls : List (Call α)) :
    let r := run (fresh policy tools cap) calls
    r.state.evaluations = r.epochs.length := by
  intro r
  rw [(tallies_evaluations (σ := σ) (α := α)).run_eq rfl, List.map_const', List.sum_replicate_nat,
    Nat.mul_one]

theorem run_decisions (policy : σ) (tools : Toolkit α) (cap : Nat) (calls : List (Call α)) :
    let r := run (fresh policy tools cap) calls
    r.state.decisions = (r.epochs.map (·.decisions.length)).sum + r.replies.length :=
  (run_recorded policy tools cap calls).decisions.trans (length_decisionLog _)

/-- What was proposed was returned or dropped. -/
theorem sum_proposed (policy : σ) (tools : Toolkit α) (cap : Nat) (calls : List (Call α)) :
    let r := run (fresh policy tools cap) calls
    (r.epochs.map (·.proposed.length)).sum =
      (r.epochs.map (·.decisions.length)).sum + r.state.dropped := by
  intro r
  rw [run_dropped, ← List.sum_map_add]
  refine congrArg List.sum (List.map_congr_left fun x hx => ?_)
  rw [decisions_eq_take_proposed hx, List.length_take]
  change _ = min cap _ + _
  omega

theorem replies_eq_nil (hsilent : ∀ (p : σ) x, (Policy.onEvent p x).2 = none) (e : Engine σ α)
    (calls : List (Call α)) : (run e calls).replies = [] := by
  refine List.filterMap_eq_nil_iff.2 fun t _ => ?_
  obtain ⟨e', c⟩ := t
  cases c with
  | event x =>
    change (e'.handleEvent x).2 = none
    rw [handleEvent_eq]
    exact hsilent e'.policy x
  | _ => rfl

/-- A policy that answers no event and counts what it proposes agrees with its engine, which
publishes the count under the policy's name for it. -/
theorem run_count {count : σ → Nat} (h : Tallies count fun x => x.decisions.length)
    (hsilent : ∀ (p : σ) x, (Policy.onEvent p x).2 = none) {name : String}
    (hname : ∀ p : σ, (Policy.statistics p).find? name = some (Scalar.ofCount (count p)))
    {policy : σ} (hzero : count policy = 0) (tools : Toolkit α) (cap : Nat)
    (calls : List (Call α)) :
    let r := run (fresh policy tools cap) calls
    count r.state.policy = r.state.decisions + r.state.dropped ∧
      r.state.statistics.find? (policyFigure name) =
        some (Scalar.ofCount (r.state.decisions + r.state.dropped)) := by
  intro r
  have hproposed : count r.state.policy = (r.epochs.map (·.proposed.length)).sum := by
    rw [← state_policy, h.run_eq hzero, epochs_policy policy tools cap, List.map_map]
    rfl
  have hreplies : r.replies = [] := replies_eq_nil hsilent _ calls
  have hdecisions : r.state.decisions = (r.epochs.map (·.decisions.length)).sum := by
    rw [run_decisions]
    change _ + r.replies.length = _
    rw [hreplies]
    rfl
  have hcount : count r.state.policy = r.state.decisions + r.state.dropped := by
    rw [hproposed, sum_proposed, hdecisions]
  refine ⟨hcount, ?_⟩
  rw [find?_statistics_policy, hname, hcount]

/-- The policy that counts its epochs has counted as many as its engine. -/
theorem run_policy_evaluations (threshold : α) (tools : Toolkit α) (cap : Nat)
    (calls : List (Call α)) :
    let r := run (fresh (ScoreThreshold.fresh threshold) tools cap) calls
    r.state.policy.evaluations = r.state.evaluations := by
  intro r
  rw [← state_policy, ScoreThreshold.tallies_evaluations.run_eq rfl, tallies_evaluations.run_eq rfl,
    epochs_policy _ tools cap, List.map_map]
  rfl

/-- In every run of an engine each epoch returns the front of what the policy proposed, up to the
cap. Since the reset, the engine counts its epochs, what it returned or answered, and what it
dropped, so that nothing proposed is unaccounted for. A policy that counts its proposals has
counted as many as its engine. All of it is what the statistics publish. -/
theorem decisions_accounted_for (tools : Toolkit α) (cap : Nat) (calls : List (Call α)) :
    (∀ policy : σ,
      let r := run (fresh policy tools cap) calls
      r.epochs.map (·.decisions) =
        r.epochs.map (fun x => x.proposed.take (min cap x.proposed.length)) ∧
      r.state.evaluations = r.epochs.length ∧
      r.state.decisions = (r.epochs.map (·.decisions.length)).sum + r.replies.length ∧
      r.state.dropped =
        (r.epochs.map fun x => x.proposed.length - min cap x.proposed.length).sum ∧
      (r.epochs.map (·.proposed.length)).sum =
        (r.epochs.map (·.decisions.length)).sum + r.state.dropped ∧
      r.state.statistics.find? "total_evaluations" = some (Scalar.ofCount r.state.evaluations) ∧
      r.state.statistics.find? "total_decisions" = some (Scalar.ofCount r.state.decisions) ∧
      r.state.statistics.find? "truncated_decisions" = some (Scalar.ofCount r.state.dropped)) ∧
    (∀ threshold : α,
      let r := run (fresh (ScoreThreshold.fresh threshold) tools cap) calls
      r.state.policy.shuffles = r.state.decisions + r.state.dropped ∧
      r.state.policy.evaluations = r.state.evaluations ∧
      r.state.statistics.find? "algorithm.shuffles_triggered" =
        some (Scalar.ofCount (r.state.decisions + r.state.dropped)) ∧
      r.state.statistics.find? "algorithm.evaluations" =
        some (Scalar.ofCount r.state.evaluations)) ∧
    (∀ pace : Pace α,
      let r := run (fresh (AdaptiveInterval.fresh pace) tools cap) calls
      r.state.policy.adjustments = r.state.decisions + r.state.dropped ∧
      r.state.statistics.find? "algorithm.frequency_adjustments" =
        some (Scalar.ofCount (r.state.decisions + r.state.dropped))) ∧
    (∀ domainName : String,
      let r := run (fresh (Isolation.fresh domainName : Isolation α) tools cap) calls
      r.state.policy.migrations = r.state.decisions + r.state.dropped ∧
      r.state.statistics.find? "algorithm.users_isolated" =
        some (Scalar.ofCount (r.state.decisions + r.state.dropped))) := by
  refine ⟨?_, ?_, ?_, ?_⟩
  · intro policy r
    obtain ⟨hevaluations, hdecisions, hdropped, -⟩ := find?_statistics r.state
    refine ⟨List.map_congr_left fun x hx => ?_, run_evaluations policy tools cap calls,
      run_decisions policy tools cap calls, ?_, sum_proposed policy tools cap calls,
      hevaluations, hdecisions, hdropped⟩
    · rw [decisions_eq_take_proposed hx, ← List.take_eq_take_min]
      rfl
    · rw [run_dropped]
      refine congrArg List.sum (List.map_congr_left fun x _ => ?_)
      omega
  · intro threshold r
    have hevaluations : r.state.policy.evaluations = r.state.evaluations :=
      run_policy_evaluations threshold tools cap calls
    obtain ⟨hshuffles, hpublished⟩ : r.state.policy.shuffles = r.state.decisions + r.state.dropped ∧
        r.state.statistics.find? (policyFigure "shuffles_triggered") =
          some (Scalar.ofCount (r.state.decisions + r.state.dropped)) :=
      run_count ScoreThreshold.tallies_shuffles (fun _ _ => rfl) (fun p => p.find?_statistics.1)
        rfl tools cap calls
    refine ⟨hshuffles, hevaluations, hpublished, ?_⟩
    rw [← hevaluations, ← r.state.policy.find?_statistics.2]
    exact find?_statistics_policy r.state "evaluations"
  · intro pace
    exact run_count AdaptiveInterval.tallies_adjustments (fun _ _ => rfl)
      (fun p => p.find?_statistics) rfl tools cap calls
  · intro domainName
    exact run_count Isolation.tallies_migrations (fun _ _ => rfl)
      (fun p => p.find?_statistics) rfl tools cap calls

end Engine
end MovingTarget
