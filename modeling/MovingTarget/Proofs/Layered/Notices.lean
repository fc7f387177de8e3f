import MovingTarget.Proofs.Layered.Epoch
import MovingTarget.Proofs.Snapshots
/-!
# What an epoch reports

Every step that decides about a domain reports the shuffles that it proposes and nothing else, in
the order in which it proposes them (`Outcome.Reports`). That is kept when steps follow one another,
so it holds of all domains in turn. Of the users that an epoch then looks at it reports those
without a domain (`spread_log`). `evaluate_log` puts the two together, domain by domain.
-/
namespace MovingTarget

/-! ## Steps that report what they propose -/

namespace Outcome
variable {σ τ ι α : Type} {notice : Decision α → Option LogEntry}

/-- The log has a notice of every decision that calls for one, in the order of the decisions. -/
def Reports (notice : Decision α → Option LogEntry) (o : Outcome σ α) : Prop :=
  o.log = o.decisions.filterMap notice

theorem Reports.quiet (s : σ) : (Outcome.quiet s).Reports notice := by
  rw [Reports, log_quiet, decisions_quiet, List.filterMap_nil]

theorem Reports.andThen {o : Outcome σ α} {f : σ → Outcome τ α} (ho : o.Reports notice)
    (hf : ∀ s, (f s).Reports notice) : (o.andThen f).Reports notice := by
  rw [Reports, log_andThen, decisions_andThen, List.filterMap_append, ho, hf]

theorem Reports.forEach {step : σ → ι → Outcome σ α} (h : ∀ s i, (step s i).Reports notice) (s : σ)
    (is : List ι) : (Outcome.forEach step s is).Reports notice := by
  induction is generalizing s with
  | nil => exact .quiet s
  | cons i rest ih => exact (h s i).andThen ih

end Outcome

namespace Layered
variable {α : Type}

/-! ## What is reported -/

def shuffleNotice (d : DomainId) : LogEntry := entry .verbose s!"Triggered shuffle for domain {d}"

def attackNotice (d : DomainId) : LogEntry :=
  entry .normal s!"Attack pattern detected in domain {d}"

def skipNotice (u : UserId) : LogEntry := entry .debug s!"User {u} has no domain, skipping"

/-- What is reported about a decision, if anything. -/
def notice? : Decision α → Option LogEntry
  | .triggerShuffle d .scoreDriven _ => some (shuffleNotice d)
  | .triggerShuffle d .attackerAvoid _ => some (attackNotice d)
  | _ => none

/-! ## Domains -/

section Domains
variable [Scalar α]

theorem shuffle_reports (p : Layered α) (now : α) (d : DomainId) (m : DomainSummary α) :
    (p.shuffle now d m).Reports notice? := by
  rw [shuffle]
  split
  · rfl
  · exact .quiet p

theorem adjust_reports (p : Layered α) (d : DomainId) (m : DomainSummary α) :
    (p.adjust d m).Reports notice? := by
  rw [adjust]
  split
  · rfl
  · exact .quiet p

theorem alarm_reports (p : Layered α) (s : Snapshot α) (d : DomainId) :
    (p.alarm s d).Reports notice? := by
  rw [alarm]
  split
  · rfl
  · exact .quiet p

theorem assess_reports (s : Snapshot α) (p : Layered α) (e : DomainId × DomainSummary α) :
    (assess s p e).Reports notice? :=
  (((Outcome.Reports.quiet _).andThen fun p => p.shuffle_reports _ _ _).andThen
    fun p => p.adjust_reports _ _).andThen fun p => p.alarm_reports s _

/-- Of the decisions about a domain the shuffles are reported. -/
theorem filterMap_notice?_verdict (p : Layered α) (s : Snapshot α) (first : Option DomainId)
    (e : DomainId × DomainSummary α) :
    (p.verdict s first e).filterMap notice? =
      (if p.shuffleDue s.seconds e.1 e.2 then [shuffleNotice e.1] else []) ++
        (if first = some e.1 then [attackNotice e.1] else []) := by
  rw [verdict, routine, shuffle_decisions, adjust_decisions, List.filterMap_append,
    List.filterMap_append]
  repeat' split
  all_goals rfl

end Domains

/-! ## Users -/

theorem spreadUser_log (s : Snapshot α) (ms : Table DomainId (DomainSummary α)) (p : Layered α)
    (u : UserId) :
    (spreadUser s ms p u).log = if s.domainOf? u = none then [skipNotice u] else [] := by
  rw [spreadUser]
  split
  next h => rw [if_pos h]; rfl
  next home h =>
    rw [if_neg (h ▸ Option.some_ne_none home)]
    split <;> rfl

/-- Of the users who are looked at, those without a domain are reported. -/
theorem spread_log (s : Snapshot α) (ms : Table DomainId (DomainSummary α)) (p : Layered α) :
    (spread s ms p).log =
      (((s.usersAtLeast p.isolationLevel).take isolationsPerEpoch).filter
        fun u => ∀ x ∈ s.domains.values, u ∉ x.users).map skipNotice := by
  have hnone (u : UserId) : s.domainOf? u = none ↔ ∀ x ∈ s.domains.values, u ∉ x.users := by
    rw [Snapshot.domainOf?_eq_none_iff, Snapshot.forall_mem_values_iff]
  rw [spread, (Outcome.forEach_of_next_eq (spreadUser_next s ms) p _).2.2, ← List.filterMap_eq_map,
    List.filterMap_filter, List.filterMap_eq_flatMap_toList]
  refine List.flatMap_congr fun u _ => (spreadUser_log s ms p u).trans ?_
  simp only [hnone, decide_eq_true_eq]
  split <;> rfl

theorem filterMap_notice?_spread (s : Snapshot α) (ms : Table DomainId (DomainSummary α))
    (p : Layered α) : (spread s ms p).decisions.filterMap notice? = [] := by
  refine List.filterMap_eq_nil_iff.2 fun x hx => ?_
  obtain ⟨u, d, reason, rfl⟩ := mem_spread hx
  rfl

/-! ## The epoch -/

section Epoch
variable [Scalar α]

/-- The shuffles proposed are reported one by one, then the users without a domain. -/
theorem evaluate_log_eq_notices (p : Layered α) (s : Snapshot α) :
    (p.evaluate s).log =
      (p.evaluate s).decisions.filterMap notice? ++ (spread s s.summaries p).log := by
  have hdomains := Outcome.Reports.forEach (assess_reports s) p s.summaries.entries
  rw [evaluate, Outcome.log_andThen, Outcome.decisions_andThen, List.filterMap_append,
    filterMap_notice?_spread, List.append_nil, hdomains, spread_log, spread_log,
    (forEach_parameters s p _).2.2]

theorem mem_log_of_notice? {p : Layered α} {s : Snapshot α} {x : Decision α} {n : LogEntry}
    (hx : x ∈ (p.evaluate s).decisions) (hn : notice? x = some n) : n ∈ (p.evaluate s).log := by
  rw [evaluate_log_eq_notices]
  exact List.mem_append_left _ (List.mem_filterMap.2 ⟨x, hx, hn⟩)

/-- Domain by domain in key order, then user by user. -/
theorem evaluate_log (p : Layered α) (s : Snapshot α) :
    (p.evaluate s).log =
      s.domains.keys.flatMap (fun d =>
        (if (p.evaluate s).decisions.any (·.shuffles d .scoreDriven) then [shuffleNotice d]
          else []) ++
        (if (p.evaluate s).decisions.any (·.shuffles d .attackerAvoid) then [attackNotice d]
          else [])) ++
      (((s.usersAtLeast p.isolationLevel).take isolationsPerEpoch).filter
        fun u => ∀ x ∈ s.domains.values, u ∉ x.users).map skipNotice := by
  have hkeys : s.domains.keys = s.summaries.entries.map (·.1) := (Table.keys_mapValues _ _).symm
  rw [evaluate_log_eq_notices, spread_log, hkeys, List.flatMap_map]
  congr 1
  rw [evaluate_decisions, List.filterMap_append, filterMap_notice?_spread, List.append_nil,
    List.filterMap_flatMap, ← evaluate_decisions]
  refine List.flatMap_congr fun e he => (p.filterMap_notice?_verdict s _ e).trans ?_
  have hfind : s.summaries.find? e.1 = some e.2 := Table.find?_eq_some_iff.2 he
  rw [evaluate_shuffles_scoreDriven, hfind, Option.any_some]
  simp only [any_shuffles_iff, avoids_iff]

end Epoch
end Layered
end MovingTarget
