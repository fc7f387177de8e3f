import MovingTarget.Proofs.Engine.Runs
import MovingTarget.Proofs.Policies
import MovingTarget.Proofs.Traces
/-!
# A reset is a cold start

What a built-in policy is built from are its parameters. Nothing but configurations changes them,
each key to the last value supplied for it, and a reset leaves a policy as if it had just been
built from the parameters then in force. So whatever follows a reset cannot tell.
-/
namespace MovingTarget
variable {α : Type}

/-! ## The values in force -/

/-- The value that a call supplies under a name. -/
def Call.supplied? (name : String) : Call α → Option α
  | .configure given => given.find? name
  | _ => none

/-- The last value that some calls supplied under a name, or else the one to begin with. -/
def lastSupplied (calls : List (Call α)) (name : String) (first : α) : α :=
  (calls.filterMap (Call.supplied? name)).getLast?.getD first

theorem lastSupplied_concat (calls : List (Call α)) (c : Call α) (name : String) (first : α) :
    lastSupplied (calls ++ [c]) name first =
      (c.supplied? name).getD (lastSupplied calls name first) := by
  unfold lastSupplied
  rw [List.filterMap_append]
  cases h : c.supplied? name <;> simp [h]

/-- What a built-in policy is built from. -/
inductive Parameters (α : Type) where
  | threshold (threshold : α)
  | adaptive (pace : Pace α)
  | isolation (domainName : String)
  | layered (threshold : α) (pace : Pace α) (isolationLevel : RiskLevel)

def Parameters.build : Parameters α → BuiltIn α
  | threshold t => .threshold (.fresh t)
  | adaptive pace => .adaptive (.fresh pace)
  | isolation domainName => .isolation (.fresh domainName)
  | layered t pace level => .layered (.fresh t pace level)

/-- The parameters that a policy has now. -/
def BuiltIn.parameters : BuiltIn α → Parameters α
  | threshold p => .threshold p.threshold
  | adaptive p => .adaptive p.pace
  | isolation p => .isolation p.domainName
  | layered p => .layered p.threshold p.pace p.isolationLevel

def Pace.inForce (calls : List (Call α)) (p : Pace α) : Pace α where
  base := lastSupplied calls "base_frequency" p.base
  min := lastSupplied calls "min_frequency" p.min
  max := lastSupplied calls "max_frequency" p.max

/-- The parameters in force after some calls: what the policy was built from, with the last value
supplied for every key that the policy knows. -/
def Parameters.inForce (calls : List (Call α)) : Parameters α → Parameters α
  | threshold t => .threshold (lastSupplied calls "threshold" t)
  | adaptive pace => .adaptive (pace.inForce calls)
  | isolation domainName => .isolation domainName
  | layered t pace level =>
    .layered (lastSupplied calls "shuffle_threshold" t) (pace.inForce calls) level

/-- The parameters after one configuration. -/
def Parameters.configure [Scalar α] (given : Figures α) : Parameters α → Parameters α
  | threshold t => .threshold (given.or "threshold" t)
  | adaptive pace => .adaptive (pace.configure given)
  | isolation domainName => .isolation domainName
  | layered t pace level =>
    .layered (given.or "shuffle_threshold" t) (pace.configure given) level

theorem Parameters.inForce_nil (θ : Parameters α) : θ.inForce [] = θ := by
  cases θ <;> rfl

/-- A configuration overrides the values in force before it. -/
theorem Parameters.inForce_configure [Scalar α] (θ : Parameters α) (calls : List (Call α))
    (given : Figures α) :
    θ.inForce (calls ++ [.configure given]) = (θ.inForce calls).configure given := by
  cases θ <;> simp only [inForce, Pace.inForce, lastSupplied_concat] <;> rfl

/-- Any other call leaves them in force. -/
theorem Parameters.inForce_concat (θ : Parameters α) (calls : List (Call α)) {c : Call α}
    (hc : ∀ name, c.supplied? name = none) : θ.inForce (calls ++ [c]) = θ.inForce calls := by
  cases θ <;> simp only [inForce, Pace.inForce, lastSupplied_concat, hc, Option.getD_none]

/-! ## What a policy keeps -/

namespace BuiltIn
variable [Scalar α]

omit [Scalar α] in
theorem parameters_build (θ : Parameters α) : θ.build.parameters = θ := by
  cases θ <;> rfl

theorem parameters_evaluate (b : BuiltIn α) (s : Snapshot α) :
    (Policy.evaluate b s).next.parameters = b.parameters := by
  cases b with
  | threshold p => rfl
  | adaptive p => rfl
  | isolation p => exact congrArg Parameters.isolation (p.evaluate_domainName s)
  | layered p =>
    obtain ⟨ht, hp, hl⟩ := Layered.evaluate_parameters p s
    change Parameters.layered (p.evaluate s).next.threshold (p.evaluate s).next.pace
      (p.evaluate s).next.isolationLevel = .layered p.threshold p.pace p.isolationLevel
    rw [ht, hp, hl]

theorem parameters_configure (b : BuiltIn α) (given : Figures α) :
    (Policy.configure b given).parameters = b.parameters.configure given := by
  cases b <;> rfl

/-- Apart from its parameters a policy has nothing left after a reset. -/
theorem reset_eq_build (b : BuiltIn α) : Policy.reset b = b.parameters.build := by
  cases b <;> rfl

theorem parameters_reset (b : BuiltIn α) : (Policy.reset b).parameters = b.parameters := by
  rw [reset_eq_build, parameters_build]

/-- After any calls a policy has the parameters in force. -/
theorem parameters_run (θ : Parameters α) (calls : List (Call α)) :
    (run θ.build calls).state.parameters = θ.inForce calls := by
  induction calls using List.reverseRecOn with
  | nil =>
    rw [θ.inForce_nil]
    exact parameters_build θ
  | append_singleton calls c ih =>
    rw [run_concat, state_after]
    cases c with
    | evaluate s =>
      rw [θ.inForce_concat calls fun _ => rfl, ← ih]
      exact parameters_evaluate _ s
    | configure given =>
      rw [θ.inForce_configure, ← ih]
      exact parameters_configure _ given
    | reset =>
      rw [θ.inForce_concat calls fun _ => rfl, ← ih]
      exact parameters_reset _
    | event x =>
      rw [θ.inForce_concat calls fun _ => rfl, ← ih]
      rfl

/-- A reset after any calls is building the policy anew from the parameters in force. -/
theorem reset_run (θ : Parameters α) (calls : List (Call α)) :
    Policy.reset (run θ.build calls).state = (θ.inForce calls).build := by
  rw [reset_eq_build, parameters_run]

end BuiltIn

namespace Engine
variable [Scalar α]

theorem run_tools {σ : Type} [Policy σ α] (e : Engine σ α) (calls : List (Call α)) :
    (run e calls).state.tools = e.tools := by
  refine run_induction (motive := fun (q : Engine σ α) _ => q.tools = e.tools) rfl
    (fun _ _ _ _ ih => ih) (fun _ _ _ ih => ih) ?_ (fun _ _ ih => ih) calls
  intro q es x ih
  change (q.handleEvent x).1.tools = _
  rw [handleEvent_eq, ← ih]

/-- A reset of an engine is a new engine around the policy built anew. -/
theorem reset_run (θ : Parameters α) (tools : Toolkit α) (cap : Nat) (calls : List (Call α)) :
    Policy.reset (run (fresh θ.build tools cap) calls).state =
      fresh (θ.inForce calls).build tools cap := by
  change fresh (Policy.reset (run (fresh θ.build tools cap) calls).state.policy) _ _ = _
  rw [← state_policy, BuiltIn.reset_run, run_tools, (run_cap _ calls).1]
  rfl

/-- What follows a reset, of a built-in policy or of an engine around one, is what a policy shows
that was just built from the parameters in force: every answer, every log entry and all statistics
after every call. The engine has the same history after every call. -/
theorem reset_is_cold_start (θ : Parameters α) (tools : Toolkit α) (cap : Nat)
    (before after : List (Call α)) :
    let again := (θ.inForce before).build
    let calls := before ++ .reset :: after
    (sights θ.build calls).drop (before.length + 1) = sights again after ∧
    (sights (fresh θ.build tools cap) calls).drop (before.length + 1) =
      sights (fresh again tools cap) after ∧
    ((trace (fresh θ.build tools cap) calls).map (·.2.history)).drop (before.length + 1) =
      (trace (fresh again tools cap) after).map (·.2.history) := by
  intro again calls
  have hpolicy : (trace θ.build calls).drop (before.length + 1) = trace again after := by
    rw [drop_trace_reset, BuiltIn.reset_run]
  have hengine : (trace (fresh θ.build tools cap) calls).drop (before.length + 1) =
      trace (fresh again tools cap) after := by
    rw [drop_trace_reset, reset_run]
  refine ⟨?_, ?_, ?_⟩
  · rw [sights, ← List.map_drop, hpolicy, sights]
  · rw [sights, ← List.map_drop, hengine, sights]
  · rw [← List.map_drop, hengine]

end Engine
end MovingTarget
