import Mathlib.Algebra.Ring.Nat
import MovingTarget.Engine.Basic
import MovingTarget.Proofs.Runs
/-!
# Runs of an engine

An engine answers the calls that a policy answers. Its policy goes through the same run that it
would go through alone (`run_policy`), and of what it proposes in an epoch the engine returns the
front (`decisions_eq_take_proposed`).
-/
namespace MovingTarget

variable {σ α : Type} [Scalar α] [Policy σ α]

instance : Policy (Engine σ α) α where
  name e := Policy.name e.policy
  evaluate := Engine.evaluate
  configure := Engine.configure
  reset := Engine.reset
  statistics := Engine.statistics
  onEvent := Engine.handleEvent

/-- What the policy of an engine proposed in an epoch. -/
def Epoch.proposed (e : Epoch (Engine σ α) α) : List (Decision α) :=
  (e.map Engine.policy).decisions

namespace Engine

omit [Scalar α] in
/-- An event reaches the policy and the history; the cap and what was dropped stay. -/
theorem handleEvent_next (e : Engine σ α) (event : Event) :
    (e.handleEvent event).1.policy = (Policy.onEvent e.policy event).1 ∧
      (e.handleEvent event).1.cap = e.cap ∧ (e.handleEvent event).1.dropped = e.dropped := by
  unfold handleEvent
  rcases Policy.onEvent e.policy event with ⟨p, _ | d⟩ <;> exact ⟨rfl, rfl, rfl⟩

omit [Scalar α] in
/-- An event is answered as the policy answers it, and the answer is recorded and counted. -/
theorem handleEvent_eq (e : Engine σ α) (x : Event) :
    e.handleEvent x =
      ({ e with
          policy := (Policy.onEvent e.policy x).1
          history := e.history.recordAll x.time (Policy.onEvent e.policy x).2.toList
          decisions := e.decisions + (Policy.onEvent e.policy x).2.toList.length },
        (Policy.onEvent e.policy x).2) := by
  unfold handleEvent
  rcases Policy.onEvent e.policy x with ⟨p, _ | d⟩ <;> rfl

theorem after_policy (e : Engine σ α) (c : Call α) :
    Policy.after e.policy c = (Policy.after e c).policy := by
  cases c with
  | evaluate s => rfl
  | configure given => rfl
  | reset => rfl
  | event x => exact (e.handleEvent_next x).1.symm

/-- The policy of an engine runs as it would alone. -/
theorem run_policy (e : Engine σ α) (calls : List (Call α)) :
    run e.policy calls = (run e calls).map Engine.policy :=
  run_map after_policy e calls

theorem state_policy (policy : σ) (tools : Toolkit α) (cap : Nat) (calls : List (Call α)) :
    (run policy calls).state = (run (fresh policy tools cap) calls).state.policy :=
  congrArg Run.state (run_policy (fresh policy tools cap) calls)

theorem epochs_policy (policy : σ) (tools : Toolkit α) (cap : Nat) (calls : List (Call α)) :
    (run policy calls).epochs =
      (run (fresh policy tools cap) calls).epochs.map (Epoch.map Engine.policy) := by
  rw [← epochs_map, ← run_policy]
  rfl

theorem run_cap (e : Engine σ α) (calls : List (Call α)) :
    (run e calls).state.cap = e.cap ∧ ∀ x ∈ (run e calls).epochs, x.before.cap = e.cap := by
  refine run_induction (motive := fun (q : Engine σ α) es =>
    q.cap = e.cap ∧ ∀ x ∈ es, x.before.cap = e.cap) ⟨rfl, nofun⟩ ?_ (fun _ _ _ ih => ih) ?_
    (fun _ _ ih => ⟨ih.1, nofun⟩) calls
  · intro q es s _ ih
    refine ⟨ih.1, fun x hx => ?_⟩
    rcases List.mem_append.1 hx with hx | hx
    · exact ih.2 x hx
    · rw [List.mem_singleton.1 hx]
      exact ih.1
  · intro q es event ih
    exact ⟨(q.handleEvent_next event).2.1.trans ih.1, ih.2⟩

theorem decisions_eq_take_proposed {e : Engine σ α} {calls : List (Call α)}
    {x : Epoch (Engine σ α) α} (h : x ∈ (run e calls).epochs) :
    x.decisions = x.proposed.take e.cap := by
  rw [← (run_cap e calls).2 x h]
  rfl

/-- The engine counts what its policy proposed beyond the cap since the reset. -/
theorem run_dropped (policy : σ) (tools : Toolkit α) (cap : Nat) (calls : List (Call α)) :
    let r := run (fresh policy tools cap) calls
    r.state.dropped = (r.epochs.map fun x => x.proposed.length - cap).sum := by
  refine run_induction (motive := fun (q : Engine σ α) es =>
    q.dropped = (es.map fun x => x.proposed.length - cap).sum) rfl ?_ (fun _ _ _ ih => ih) ?_
    (fun _ _ _ => rfl) calls
  · intro q es s ⟨calls, hq, _⟩ ih
    -- No call changes the cap, so this epoch was cut where the sum says.
    have hcap : q.cap = cap := hq ▸ (run_cap (fresh policy tools cap) calls).1
    rw [List.map_append, List.sum_append, ← ih, List.map_singleton, List.sum_singleton, ← hcap]
    rfl
  · intro q es event ih
    exact (q.handleEvent_next event).2.2.trans ih

/-- If nothing was dropped, everything proposed was returned. -/
theorem decisions_eq_proposed {policy : σ} {tools : Toolkit α} {cap : Nat}
    {calls : List (Call α)} {x : Epoch (Engine σ α) α}
    (h : x ∈ (run (fresh policy tools cap) calls).epochs)
    (hdropped : (run (fresh policy tools cap) calls).state.dropped = 0) :
    x.decisions = x.proposed := by
  rw [run_dropped, List.sum_eq_zero_iff_forall_eq_nat] at hdropped
  have hx := hdropped _ (List.mem_map_of_mem h)
  rw [decisions_eq_take_proposed h]
  exact List.take_of_length_le (Nat.sub_eq_zero_iff_le.1 hx)

end Engine
end MovingTarget
