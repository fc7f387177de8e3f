import MovingTarget.Proofs.Engine.Commitment
import MovingTarget.Proofs.Engine.Figures
import MovingTarget.Proofs.Traces
/-!
# The cap does not feed back

Two engines that differ in nothing but their caps take the same calls. Neither of them looks at
what it returned or dropped before, so their policies stay in step, and what the smaller cap
withholds it drops.
-/
namespace MovingTarget.Engine

variable {σ α : Type} [Scalar α] [Policy σ α]

/-- What an epoch adds to the decisions and the dropped ones is what was proposed. -/
theorem total_evaluate (e : Engine σ α) (s : Snapshot α) :
    (e.evaluate s).next.decisions + (e.evaluate s).next.dropped =
      e.decisions + e.dropped + (Policy.evaluate e.policy s).decisions.length := by
  simp only [evaluate, List.length_take]
  omega

/-- An engine that has gone the way of another one with a larger cap: their policies are in the
same state, they have counted the same epochs and proposals, and the first has dropped no less. -/
structure Trails (a b : Engine σ α) : Prop where
  cap : a.cap ≤ b.cap
  policy : a.policy = b.policy
  evaluations : a.evaluations = b.evaluations
  total : a.decisions + a.dropped = b.decisions + b.dropped
  dropped : b.dropped ≤ a.dropped

theorem Trails.evaluate {a b : Engine σ α} (h : Trails a b) (s : Snapshot α) :
    Trails (a.evaluate s).next (b.evaluate s).next where
  cap := h.cap
  policy := congrArg (fun p => (Policy.evaluate p s).next) h.policy
  evaluations := congrArg (· + 1) h.evaluations
  total := by rw [total_evaluate, total_evaluate, h.total, h.policy]
  dropped := by
    have hcap := h.cap
    have hdropped := h.dropped
    simp only [Engine.evaluate, h.policy]
    omega

omit [Scalar α] in
theorem Trails.handleEvent {a b : Engine σ α} (h : Trails a b) (x : Event) :
    Trails (a.handleEvent x).1 (b.handleEvent x).1 := by
  rw [handleEvent_eq, handleEvent_eq]
  refine ⟨h.cap, ?_, h.evaluations, ?_, h.dropped⟩
  · exact congrArg (fun p => (Policy.onEvent p x).1) h.policy
  · have htotal := h.total
    simp only [h.policy]
    omega

theorem Trails.after {a b : Engine σ α} (h : Trails a b) (c : Call α) :
    Trails (Policy.after a c) (Policy.after b c) := by
  cases c with
  | evaluate s => exact h.evaluate s
  | configure given =>
    exact ⟨h.cap, congrArg (Policy.configure · given) h.policy, h.evaluations, h.total, h.dropped⟩
  | reset => exact ⟨h.cap, congrArg Policy.reset h.policy, rfl, rfl, Nat.le_refl 0⟩
  | event x => exact h.handleEvent x

/-- An epoch returns as much of what the other one returned as the smaller cap allows. -/
theorem Trails.decisions_eq {a b : Engine σ α} (h : Trails a b) (c : Call α) :
    (Policy.answer a c).decisions = (Policy.answer b c).decisions.take a.cap := by
  cases c with
  | evaluate s =>
    change (Policy.evaluate a.policy s).decisions.take a.cap =
      ((Policy.evaluate b.policy s).decisions.take b.cap).take a.cap
    rw [List.take_take, Nat.min_eq_left h.cap, h.policy]
  | configure given => exact List.take_nil.symm
  | reset => exact List.take_nil.symm
  | event x => exact List.take_nil.symm

theorem Trails.reply_eq {a b : Engine σ α} (h : Trails a b) (c : Call α) :
    (Policy.answer a c).reply = (Policy.answer b c).reply := by
  cases c with
  | evaluate s => rfl
  | configure given => rfl
  | reset => rfl
  | event x =>
    change (a.handleEvent x).2 = (b.handleEvent x).2
    rw [handleEvent_eq, handleEvent_eq, h.policy]

theorem Trails.figures_eq {a b : Engine σ α} (h : Trails a b) (name : String) :
    a.statistics.find? (policyFigure name) = b.statistics.find? (policyFigure name) := by
  rw [find?_statistics_policy, find?_statistics_policy, h.policy]

/-- What the same call shows of an engine and of one with a larger cap. An epoch of the first
returns the front of what the second returns; all else looks alike. -/
structure Curbed (cap : Nat) (x y : Answer α × Engine σ α) : Prop where
  decisions : x.1.decisions = y.1.decisions.take cap
  reply : x.1.reply = y.1.reply
  state : Trails x.2 y.2
  figures : ∀ name,
    x.2.statistics.find? (policyFigure name) = y.2.statistics.find? (policyFigure name)

theorem after_cap (e : Engine σ α) (c : Call α) : (Policy.after e c).cap = e.cap := by
  cases c with
  | event x => exact (e.handleEvent_next x).2.1
  | _ => rfl

/-- Two engines that differ in nothing but their caps show the same after every call, except that
the smaller cap cuts off the end of what an epoch returns. -/
theorem cap_does_not_feed_back (e : Engine σ α) {c₁ c₂ : Nat} (h : c₁ ≤ c₂)
    (calls : List (Call α)) :
    List.Forall₂ (Curbed c₁) (trace { e with cap := c₁ } calls)
      (trace { e with cap := c₂ } calls) := by
  have hrun : ∀ a b : Engine σ α, Trails a b →
      List.Forall₂ (Curbed a.cap) (trace a calls) (trace b calls) := by
    induction calls with
    | nil => exact fun _ _ _ => .nil
    | cons c calls ih =>
      intro a b hab
      have hc := hab.after c
      refine .cons ⟨hab.decisions_eq c, hab.reply_eq c, hc, hc.figures_eq⟩ ?_
      rw [← after_cap a c]
      exact ih _ _ hc
  exact hrun { e with cap := c₁ } { e with cap := c₂ } ⟨h, rfl, rfl, rfl, Nat.le_refl _⟩

/-- Room for one decision or for ten where three are proposed, before a reset and after it. -/
theorem caps_of_one_and_ten :
    let calls := [.evaluate onslaught, .reset, .evaluate onslaught]
    1 ≤ 10 ∧
    (trace { narrow with cap := 1 } calls).map (·.1.decisions.length) = [1, 0, 1] ∧
    (trace { narrow with cap := 10 } calls).map (·.1.decisions.length) = [3, 0, 3] ∧
    List.Forall₂ (Curbed 1) (trace { narrow with cap := 1 } calls)
      (trace { narrow with cap := 10 } calls) :=
  ⟨by decide, by decide +kernel, by decide +kernel, cap_does_not_feed_back narrow (by decide) _⟩

end MovingTarget.Engine
