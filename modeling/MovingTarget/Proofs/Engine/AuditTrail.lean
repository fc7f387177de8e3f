import MovingTarget.Proofs.Engine.Accounting
import MovingTarget.Proofs.Layered.Notices
import MovingTarget.Proofs.Traces
/-!
# The log as an audit trail

An engine and its policy report to one log (`captured`). What an epoch adds to it is what the policy
reports, then what was dropped, then the number of the epoch and of what it returned
(`evaluate_log`). The policy reports what it proposes, so a shuffle that the cap cuts off is in the
log all the same.
-/
namespace MovingTarget
variable {σ α : Type} [Scalar α] [Policy σ α]

omit [Scalar α] in
/-- Everything that was logged in the course of some calls. -/
def captured (p : σ) (calls : List (Call α)) : Log := ⟨(trace p calls).flatMap (·.1.log)⟩

omit [Scalar α] in
theorem captured_evaluate (p : σ) (calls : List (Call α)) (s : Snapshot α) :
    (captured p (calls ++ [.evaluate s])).entries =
      (captured p calls).entries ++ (Policy.evaluate (run p calls).state s).log := by
  simp only [captured, trace_append, List.flatMap_append, trace, List.flatMap_singleton]
  rfl

/-- No call changes who is spread. -/
theorem Layered.run_isolationLevel (threshold : α) (pace : Pace α) (level : RiskLevel)
    (calls : List (Call α)) :
    (run (fresh threshold pace level) calls).state.isolationLevel = level := by
  refine run_induction (motive := fun (p : Layered α) _ => p.isolationLevel = level) rfl ?_
    (fun _ _ _ ih => ih) (fun _ _ _ ih => ih) (fun _ _ ih => ih) calls
  exact fun p es s _ ih => (p.evaluate_parameters s).2.2.trans ih

namespace Engine

/-- The engine adds to what its policy reports how much it dropped, if anything, and a closing
entry. -/
theorem evaluate_log (e : Engine σ α) (s : Snapshot α) :
    (e.evaluate s).log =
      (Policy.evaluate e.policy s).log ++
        (if e.cap < (Policy.evaluate e.policy s).decisions.length then
          [e.dropEntry ((Policy.evaluate e.policy s).decisions.length - e.cap)] else []) ++
        [epochEntry (e.evaluations + 1) s (e.evaluate s).decisions.length] := by
  rw [evaluate]
  simp only [Nat.sub_pos_iff_lt]

/-- In every run of an engine around the layered policy, with one log for both, an epoch adds: for
every domain in key order, that it is shuffled for its score and that it shows signs of an attack,
each if the policy proposed the shuffle that goes with it; of the first users at the isolation level
or above, ascending, those that no domain lists; how many decisions were dropped, if more were
proposed than the cap allows; and the number of the epoch since the last reset with the number of
decisions returned. Nothing else is added, and no shuffle that was proposed is missing. -/
theorem epoch_leaves_audit_trail (threshold : α) (pace : Pace α) (level : RiskLevel)
    (tools : Toolkit α) (cap : Nat) (calls : List (Call α)) (s : Snapshot α) :
    let e := fresh (Layered.fresh threshold pace level) tools cap
    let r := run e calls
    let proposed := (r.state.policy.evaluate s).decisions
    let returned := (r.state.evaluate s).decisions
    let added : List LogEntry :=
      s.domains.keys.flatMap (fun d =>
        (if proposed.any (·.shuffles d .scoreDriven) then
          [⟨.verbose, "MultiLevelDefense", s!"Triggered shuffle for domain {d}"⟩] else []) ++
        (if proposed.any (·.shuffles d .attackerAvoid) then
          [⟨.normal, "MultiLevelDefense", s!"Attack pattern detected in domain {d}"⟩] else [])) ++
      ((((s.usersAtLeast level).take 5).filter fun u => ∀ x ∈ s.domains.values, u ∉ x.users).map
        fun u => ⟨.debug, "MultiLevelDefense", s!"User {u} has no domain, skipping"⟩) ++
      (if cap < proposed.length then
        [⟨.normal, "engine",
          s!"Dropped {proposed.length - cap} decisions over the limit of {cap} per evaluation"⟩]
        else []) ++
      [⟨.verbose, "engine",
        let time := Scalar.fixed 3 s.seconds
        s!"Evaluation {r.epochs.length + 1} at t={time}s returned {returned.length} decisions"⟩]
    (captured e (calls ++ [.evaluate s])).entries = (captured e calls).entries ++ added ∧
    (∀ d reason, .triggerShuffle d .scoreDriven reason ∈ proposed →
      ⟨.verbose, "MultiLevelDefense", s!"Triggered shuffle for domain {d}"⟩ ∈ added) ∧
    (∀ d reason, .triggerShuffle d .attackerAvoid reason ∈ proposed →
      ⟨.normal, "MultiLevelDefense", s!"Attack pattern detected in domain {d}"⟩ ∈ added) := by
  intro e r proposed returned added
  have hcap : r.state.cap = cap := (run_cap e calls).1
  have hcount : r.state.evaluations = r.epochs.length := run_evaluations _ tools cap calls
  have hlevel : r.state.policy.isolationLevel = level := by
    rw [← state_policy, Layered.run_isolationLevel]
  have hadded : (r.state.evaluate s).log = added := by
    rw [evaluate_log, hcap, hcount, dropEntry, hcap]
    change (r.state.policy.evaluate s).log ++ _ ++ _ = _
    rw [Layered.evaluate_log, hlevel]
    rfl
  have hmem : ∀ x n, x ∈ proposed → Layered.notice? x = some n → n ∈ added := by
    intro x n hx hn
    rw [← hadded, evaluate_log]
    exact List.mem_append_left _ (List.mem_append_left _ (Layered.mem_log_of_notice? hx hn))
  refine ⟨?_, fun d reason hx => hmem _ _ hx rfl, fun d reason hx => hmem _ _ hx rfl⟩
  rw [captured_evaluate, ← hadded]
  rfl

/-- Two shuffles are proposed and one is dropped; user 9 is at high risk and in no domain. -/
example :
    let attack := { Observation.quiet with rateAnomaly := 0.9, confidence := 0.9 }
    let s : Snapshot Float :=
      { Snapshot.empty 10000000000 with
        domains := .ofList [(1, ⟨1, "", [], [2], 0.0, 30.0⟩)]
        scores := .ofList [(2, ⟨2, 0.9, .low, 0⟩), (9, ⟨9, 0.5, .high, 0⟩)]
        observations := .ofList [(4, attack)] }
    let e : Engine (Layered Float) Float := .fresh .standard .standard 1
    (captured e [.evaluate s]).messages =
      ["Triggered shuffle for domain 1", "Attack pattern detected in domain 1",
        "User 9 has no domain, skipping", "Dropped 1 decisions over the limit of 1 per evaluation",
        "Evaluation 1 at t=10.000s returned 1 decisions"] := by
  decide +kernel

end Engine
end MovingTarget
