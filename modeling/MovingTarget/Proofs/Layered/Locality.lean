import Mathlib.Data.List.Forall2
import Mathlib.Data.Option.Basic
import MovingTarget.Proofs.Layered.Memory
import MovingTarget.Proofs.Traces
/-!
# What other domains cannot change

Two runs take calls that agree on everything that concerns one domain and may differ in all else.
The shuffles of that domain for its score and the changes of its interval are the same in both:
the alarm and the spreading of users do look at other domains, but neither leaves a mark on what
is kept for this one (`SameAt.evaluate`).
-/
namespace MovingTarget

section Agreement
variable {α : Type}

/-- The users that a snapshot lists for a domain. -/
def Snapshot.members (s : Snapshot α) (d : DomainId) : List UserId :=
  ((s.domains.find? d).map (·.users)).getD []

/-- Two snapshots that agree on what concerns a domain: the time, whether the domain is there, its
users and its interval, and the standing of each of these users. -/
structure AgreeOn (d : DomainId) (s t : Snapshot α) : Prop where
  time : s.time = t.time
  domain : (s.domains.find? d).map (fun x => (x.users, x.interval)) =
    (t.domains.find? d).map fun x => (x.users, x.interval)
  standing : ∀ u ∈ s.members d, (s.scores.find? u).map (fun x => (x.score, x.level)) =
    (t.scores.find? u).map fun x => (x.score, x.level)

/-- Two calls of the same kind that agree on what concerns a domain. Events have no part in it. -/
inductive Call.AlikeOn (d : DomainId) : Call α → Call α → Prop where
  | evaluate {s t : Snapshot α} (h : AgreeOn d s t) : AlikeOn d (.evaluate s) (.evaluate t)
  | configure (given : Figures α) : AlikeOn d (.configure given) (.configure given)
  | reset : AlikeOn d .reset .reset

/-- Whether a decision shuffles a domain for its score or changes its interval. -/
def Decision.paces (d : DomainId) : Decision α → Bool
  | .triggerShuffle k mode _ => k = d ∧ mode = .scoreDriven
  | .changeFrequency k _ _ => k = d
  | _ => false

/-- Two summaries that ask for the same shuffles and intervals. -/
structure SameRisk (m n : DomainSummary α) : Prop where
  interval : m.interval = n.interval
  meanScore : m.meanScore = n.meanScore
  highRisk : m.highRisk = n.highRisk

namespace AgreeOn
variable {d : DomainId} {s t : Snapshot α}

/-- The members that have a score have the same ones in the same order. -/
theorem memberScores (h : AgreeOn d s t) {x y : Domain α} (hx : s.domains.find? d = some x)
    (hu : x.users = y.users) :
    (s.memberScores x).map (fun m => (m.score, m.level)) =
      (t.memberScores y).map fun m => (m.score, m.level) := by
  have hmembers : s.members d = x.users := by
    rw [Snapshot.members, hx]
    rfl
  rw [Snapshot.memberScores, Snapshot.memberScores, List.map_filterMap, List.map_filterMap, ← hu]
  exact List.filterMap_congr fun u hm => h.standing u (hmembers ▸ hm)

variable [Scalar α]

theorem seconds (h : AgreeOn d s t) : s.seconds = t.seconds := by
  rw [Snapshot.seconds, h.time, Snapshot.seconds]

/-- The domain is summed up in both snapshots or in neither, and the summaries ask for the same. -/
theorem summaries (h : AgreeOn d s t) :
    Option.Rel SameRisk (s.summaries.find? d) (t.summaries.find? d) := by
  have hdomain := h.domain
  rw [Snapshot.summaries, Snapshot.summaries, Table.find?_mapValues, Table.find?_mapValues]
  cases hs : s.domains.find? d with
  | none =>
    rw [hs, Option.map_none, eq_comm, Option.map_eq_none_iff] at hdomain
    rw [hdomain]
    exact .none
  | some x =>
    rw [hs, Option.map_some, eq_comm, Option.map_eq_some_iff] at hdomain
    obtain ⟨y, ht, hy⟩ := hdomain
    obtain ⟨husers, hinterval⟩ := Prod.mk.inj hy
    have hscores := h.memberScores hs husers.symm
    rw [ht]
    refine .some ⟨hinterval.symm, ?_, ?_⟩
    · have hmean := congrArg (List.map Prod.fst) hscores
      simp only [List.map_map] at hmean
      exact congrArg mean hmean
    · have hcount := congrArg (List.countP fun m => m.2.isHighRisk) hscores
      simp only [List.countP_map] at hcount
      exact hcount

end AgreeOn
end Agreement

namespace Layered
variable {α : Type} [Scalar α]

/-! ## One epoch -/

theorem routine_congr (p : Layered α) {s t : Snapshot α} (hs : s.seconds = t.seconds)
    {d : DomainId} {m n : DomainSummary α} (h : SameRisk m n) :
    p.routine s (d, m) = p.routine t (d, n) := by
  obtain ⟨_, _, _, _, _, _⟩ := m
  obtain ⟨_, _, _, _, _, _⟩ := n
  obtain ⟨rfl, rfl, rfl⟩ := h
  simp only [routine, hs]
  rfl

theorem sameAt_assess (p : Layered α) {s t : Snapshot α} (hs : s.seconds = t.seconds)
    (d : DomainId) {m n : DomainSummary α} (h : SameRisk m n) :
    SameAt d (assess s p (d, m)).next (assess t p (d, n)).next := by
  have hdue : p.shuffleDue s.seconds d m = p.shuffleDue t.seconds d n := by
    rw [shuffleDue, shuffleDue, hs, h.meanScore]
  have hwindow : p.window (d, m) = p.window (d, n) := by rw [window, window, h.meanScore]
  rw [assess_next, assess_next]
  refine ⟨rfl, rfl, ?_, ?_⟩
  · dsimp only
    rw [hdue, hs]
  · dsimp only
    rw [hwindow]

/-- Two states that agree on a domain go on agreeing on it, if the snapshots do. -/
theorem SameAt.evaluate {d : DomainId} {p q : Layered α} {s t : Snapshot α} (h : SameAt d p q)
    (hst : AgreeOn d s t) : SameAt d (p.evaluate s).next (q.evaluate t).next := by
  have hsummaries := hst.summaries
  cases hs : s.summaries.find? d with
  | none =>
    cases ht : t.summaries.find? d with
    | none => exact (evaluate_frame hs p).trans (h.trans (evaluate_frame ht q).symm)
    | some n => rw [hs, ht] at hsummaries; cases hsummaries
  | some m =>
    cases ht : t.summaries.find? d with
    | none => rw [hs, ht] at hsummaries; cases hsummaries
    | some n =>
      rw [hs, ht] at hsummaries
      obtain ⟨hmn⟩ := hsummaries
      have hown : SameAt d (Layered.assess s p (d, m)).next (Layered.assess s q (d, m)).next :=
        SameAt.assess (e := (d, m)) h s
      have hother := sameAt_assess q hst.seconds d hmn
      exact (evaluate_at hs p).trans (hown.trans (hother.trans (evaluate_at ht q).symm))

theorem paces_routine {p : Layered α} {s : Snapshot α} {e : DomainId × DomainSummary α}
    {x : Decision α} (hx : x ∈ p.routine s e) (d : DomainId) : x.paces d = decide (e.1 = d) := by
  rw [routine, shuffle_decisions, adjust_decisions, List.mem_append] at hx
  rcases hx with hx | hx
  · split at hx
    · obtain rfl := List.mem_singleton.1 hx
      simp [Decision.paces]
    · cases hx
  · split at hx
    · obtain rfl := List.mem_singleton.1 hx
      rfl
    · cases hx

/-- What an epoch proposes for a domain, the alarm apart, is the routine of its own turn. -/
theorem filter_paces_decisions (p : Layered α) (s : Snapshot α) (d : DomainId) :
    (p.evaluate s).decisions.filter (·.paces d) =
      (s.summaries.find? d).elim [] fun m => p.routine s (d, m) := by
  have hv : ∀ first, ∀ e : DomainId × DomainSummary α,
      (p.verdict s first e).filter (·.paces d) = if e.1 = d then p.routine s e else [] := by
    intro first e
    have hroutine : (p.routine s e).filter (·.paces d) =
        if e.1 = d then p.routine s e else [] := by
      split
      · next hk => exact List.filter_eq_self.2 fun x hx => by simp [paces_routine hx, hk]
      · next hk => exact List.filter_eq_nil_iff.2 fun x hx => by simp [paces_routine hx, hk]
    have halarm : (if first = some e.1 then [avoid (α := α) e.1] else []).filter (·.paces d) =
        [] := by
      split <;> simp [avoid, Decision.paces]
    rw [verdict, List.filter_append, hroutine, halarm, List.append_nil]
  have hspread : (spread s s.summaries p).decisions.filter (·.paces d) = [] :=
    filter_spread_eq_nil (fun _ _ _ => rfl) s s.summaries p
  rw [evaluate_decisions, List.filter_append, List.filter_flatMap, hspread, List.append_nil]
  simp only [hv]
  exact Table.flatMap_key s.summaries.nodup_keys d (p.routine s)

theorem SameAt.filter_paces {d : DomainId} {p q : Layered α} {s t : Snapshot α}
    (h : SameAt d p q) (hst : AgreeOn d s t) :
    (p.evaluate s).decisions.filter (·.paces d) = (q.evaluate t).decisions.filter (·.paces d) := by
  rw [filter_paces_decisions, filter_paces_decisions]
  have hsummaries := hst.summaries
  generalize s.summaries.find? d = m at hsummaries
  generalize t.summaries.find? d = n at hsummaries
  cases hsummaries with
  | none => rfl
  | some hmn =>
    rw [Option.elim_some, Option.elim_some, ← routine_congr q hst.seconds hmn]
    exact SameAt.routine (e := (d, _)) h s

/-! ## A whole run -/

theorem SameAt.after {d : DomainId} {p q : Layered α} (h : SameAt d p q) {c c' : Call α}
    (hc : c.AlikeOn d c') : SameAt d (Policy.after p c) (Policy.after q c') := by
  cases hc with
  | evaluate hst => exact h.evaluate hst
  | configure given =>
    refine ⟨?_, ?_, h.lastShuffle, h.history⟩
    · exact congrArg (given.or "shuffle_threshold") h.threshold
    · exact congrArg (Pace.configure · given) h.pace
  | reset => exact ⟨h.threshold, h.pace, rfl, rfl⟩

theorem SameAt.proposals_eq {d : DomainId} {p q : Layered α} (h : SameAt d p q)
    {calls calls' : List (Call α)} (hcalls : List.Forall₂ (Call.AlikeOn d) calls calls') :
    (proposals p calls).map (·.filter (·.paces d)) =
      (proposals q calls').map (·.filter (·.paces d)) := by
  -- The states meet different calls and part, but go on agreeing on the domain.
  induction hcalls generalizing p q with
  | nil => rfl
  | cons hc _ ih =>
    have hrest := ih (h.after hc)
    cases hc with
    | evaluate hst => exact congrArg₂ List.cons (h.filter_paces hst) hrest
    | configure given => exact hrest
    | reset => exact hrest

/-- In two runs that agree on what concerns a domain, whatever else differs and whatever events come
between, every epoch returns the same shuffles of it for its score and the same changes of its
interval. -/
theorem paced_alike (threshold : α) (pace : Pace α) (level : RiskLevel) (d : DomainId)
    {calls calls' : List (Call α)}
    (h : List.Forall₂ (Call.AlikeOn d) (calls.filter (!·.isEvent)) (calls'.filter (!·.isEvent))) :
    (proposals (fresh threshold pace level) calls).map (·.filter (·.paces d)) =
      (proposals (fresh threshold pace level) calls').map (·.filter (·.paces d)) := by
  have hrun := (SameAt.refl d (fresh threshold pace level)).proposals_eq h
  rw [proposals_filter_isEvent fun _ _ => rfl, proposals_filter_isEvent fun _ _ => rfl] at hrun
  exact hrun

/-- Domain 1 on its own, with one user whose score exceeds the threshold. -/
def secluded (time : Timestamp) : Snapshot Float :=
  ((Snapshot.empty time).addDomain ⟨1, "", [], [1], 0.0, 20.0⟩).addScore ⟨1, 0.9, .low, 0⟩

/-- The same domain, under another name and load, in a network under attack. -/
def besieged (time : Timestamp) : Snapshot Float :=
  let own := ((Snapshot.empty time).addDomain ⟨1, "front", [4], [1], 0.7, 20.0⟩).addScore
    ⟨1, 0.9, .low, 5⟩
  ((own.addDomain ⟨2, "", [], [2], 0.0, 1.0⟩).addScore ⟨2, 0.5, .high, 0⟩).addObservation 4
    ⟨0.9, 0.0, 0.0, 0.0, .dos, 0.9, 0⟩

/-- Through a configuration and a reset domain 1 is shuffled and slowed down the same way, whether
it is on its own or in a network under attack that reports it. -/
theorem paced_alike_under_siege :
    let calls (network : Timestamp → Snapshot Float) (report : List (Call Float)) :=
      [.evaluate (network 10000000000), .configure (.ofList [("min_frequency", 1.0)])] ++ report ++
        [.evaluate (network 12000000000), .reset, .evaluate (network 20000000000)]
    let report := [.event ⟨.attackDetected, 11000000000, 4, ∅⟩]
    let start : Layered Float := fresh 0.6 .standard .high
    List.Forall₂ (Call.AlikeOn 1) ((calls secluded []).filter (!·.isEvent))
      ((calls besieged report).filter (!·.isEvent)) ∧
    (proposals start (calls secluded [])).map (·.filter (·.paces 1)) =
      (proposals start (calls besieged report)).map (·.filter (·.paces 1)) ∧
    (proposals start (calls besieged report)).map
      (fun ds => ((ds.filter (·.paces 1)).length, ds.length)) = [(2, 5), (2, 4), (2, 5)] := by
  intro calls report start
  have hagree : ∀ time, AgreeOn 1 (secluded time) (besieged time) := by
    intro time
    refine ⟨rfl, rfl, fun u hu => ?_⟩
    obtain rfl : u = 1 := List.mem_singleton.1 hu
    rfl
  have hcalls : List.Forall₂ (Call.AlikeOn 1) ((calls secluded []).filter (!·.isEvent))
      ((calls besieged report).filter (!·.isEvent)) :=
    .cons (.evaluate (hagree _)) (.cons (.configure _) (.cons (.evaluate (hagree _))
      (.cons .reset (.cons (.evaluate (hagree _)) .nil))))
  exact ⟨hcalls, paced_alike 0.6 .standard .high 1 hcalls, by decide +kernel⟩

end Layered
end MovingTarget
