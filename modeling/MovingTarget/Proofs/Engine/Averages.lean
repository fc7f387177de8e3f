import Mathlib.Algebra.Order.BigOperators.Group.List
import Mathlib.Algebra.Order.Field.Basic
import Mathlib.Data.Rat.Cast.Order
import MovingTarget.Proofs.Engine.Accounting
/-!
# Decisions per evaluation

The mean that an engine publishes divides by its epochs all that it decided, and that includes its
answers to events. So it is the mean number of decisions that an epoch returned, which the cap
bounds (`returned_mean_le_cap`), only as long as no event was answered; with an answer it lies above
that, and can lie above the cap.
-/
namespace MovingTarget
variable {σ α : Type} [Scalar α] [Policy σ α]

/-- The mean number of decisions that the epochs since the reset returned, zero before the first. -/
def Run.returnedMean (r : Run (Engine σ α) α) : ℚ :=
  (r.epochs.map (·.decisions.length)).sum / r.epochs.length

namespace Engine

omit [Scalar α] [Policy σ α] in
/-- What `meanDecisions` rounds. -/
def exactMean (e : Engine σ α) : ℚ := e.decisions / e.evaluations

theorem sum_returned_le (e : Engine σ α) (calls : List (Call α)) :
    ((run e calls).epochs.map (·.decisions.length)).sum ≤ (run e calls).epochs.length * e.cap := by
  have hle : ∀ n ∈ (run e calls).epochs.map (·.decisions.length), n ≤ e.cap := by
    intro n hn
    obtain ⟨x, hx, rfl⟩ := List.mem_map.1 hn
    rw [decisions_eq_take_proposed hx, List.length_take]
    exact Nat.min_le_left _ _
  simpa using List.sum_le_card_nsmul _ e.cap hle

/-- On the mean, an epoch returns no more than the cap. -/
theorem returned_mean_le_cap (e : Engine σ α) (calls : List (Call α)) :
    (run e calls).returnedMean ≤ e.cap := by
  refine div_le_of_le_mul₀ (Nat.cast_nonneg _) (Nat.cast_nonneg _) ?_
  rw [mul_comm]
  exact_mod_cast sum_returned_le e calls

/-- The answers to events come on top of what the epochs returned. -/
theorem run_exactMean (policy : σ) (tools : Toolkit α) (cap : Nat) (calls : List (Call α)) :
    let r := run (fresh policy tools cap) calls
    r.state.exactMean = r.returnedMean + r.replies.length / r.epochs.length := by
  intro r
  rw [exactMean, run_decisions, run_evaluations, Nat.cast_add, add_div]
  rfl

theorem meanDecisions_run (policy : σ) (tools : Toolkit α) (cap : Nat) (calls : List (Call α)) :
    let r := run (fresh policy tools cap) calls
    r.state.meanDecisions =
      if 0 < r.epochs.length then
        Scalar.ofCount ((r.epochs.map (·.decisions.length)).sum + r.replies.length) /
          Scalar.ofCount r.epochs.length
      else 0.0 := by
  intro r
  rw [meanDecisions, run_decisions, run_evaluations]

/-- In every run of an engine, the mean that it publishes is the number of decisions that its epochs
returned since the reset, and of its answers to events since then, over the number of epochs. So it
is the mean of what the epochs returned exactly if no event was answered or there was no epoch, and
lies above it otherwise. The mean of what the epochs returned never exceeds the cap, nor does the
one published if no event was answered. -/
theorem published_mean_counts_replies (policy : σ) (tools : Toolkit α) (cap : Nat)
    (calls : List (Call α)) :
    let r := run (fresh policy tools cap) calls
    r.state.statistics.find? "avg_decisions_per_eval" = some r.state.meanDecisions ∧
    r.state.meanDecisions =
      (if 0 < r.epochs.length then
        Scalar.ofCount ((r.epochs.map (·.decisions.length)).sum + r.replies.length) /
          Scalar.ofCount r.epochs.length
      else 0.0) ∧
    r.state.exactMean =
      ((r.epochs.map (·.decisions.length)).sum + r.replies.length : ℕ) / (r.epochs.length : ℚ) ∧
    r.returnedMean ≤ cap ∧
    (r.state.exactMean = r.returnedMean ↔ r.replies = [] ∨ r.epochs = []) ∧
    r.returnedMean ≤ r.state.exactMean ∧
    (r.replies = [] → r.state.exactMean ≤ cap) := by
  intro r
  have hexact : r.state.exactMean = r.returnedMean + r.replies.length / r.epochs.length :=
    run_exactMean policy tools cap calls
  have hcap : r.returnedMean ≤ cap := returned_mean_le_cap (fresh policy tools cap) calls
  refine ⟨(find?_statistics r.state).2.2.2, meanDecisions_run policy tools cap calls, ?_, hcap,
    ?_, ?_, fun hsilent => ?_⟩
  · rw [hexact, Run.returnedMean, Nat.cast_add, add_div]
  · rw [hexact, add_eq_left, div_eq_zero_iff, Nat.cast_eq_zero, Nat.cast_eq_zero,
      List.length_eq_zero_iff, List.length_eq_zero_iff]
  · rw [hexact]
    exact le_add_of_nonneg_right (div_nonneg (Nat.cast_nonneg _) (Nat.cast_nonneg _))
  · rw [hexact, hsilent, List.length_nil, Nat.cast_zero, zero_div, add_zero]
    exact hcap

end Engine

/-! ## Answers above the cap -/

/-- A policy that proposes nothing and gives every event the same answer. -/
structure Responder (α : Type) where
  answer : Decision α

instance : Policy (Responder α) α where
  name _ := "Responder"
  evaluate p _ := .quiet p
  configure p _ := p
  reset p := p
  statistics _ := ∅
  onEvent p _ := (p, some p.answer)

/-- One epoch without decisions and two answers to attacks: with a cap of one, the engine publishes
a mean of two decisions per evaluation. -/
theorem answers_exceed_cap :
    let attack (time : Timestamp) : Event := { Event.unspecified with type := .attackStarted, time }
    let r := run (Engine.fresh (⟨.splitDomain 1 "attack"⟩ : Responder Float) .standard 1)
      [.evaluate (.empty 0), .event (attack 1), .event (attack 2)]
    r.epochs.map (·.decisions) = [[]] ∧ r.returnedMean = 0 ∧ r.state.cap = 1 ∧
      r.state.exactMean = 2 ∧
      r.state.statistics.find? "avg_decisions_per_eval" = some 2.0 := by
  decide +kernel

end MovingTarget
