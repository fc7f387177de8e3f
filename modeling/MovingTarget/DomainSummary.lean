import MovingTarget.Snapshot.Codec
/-!
# Domain summaries

A summary condenses one domain of a snapshot: how many users and proxies it has, how it is loaded,
how risky its members are. Members without a score are counted as users and otherwise ignored.
-/
namespace MovingTarget

structure DomainSummary (α : Type) where
  users : Nat
  proxies : Nat
  load : α
  interval : α
  /-- The mean score of the members that have one, zero if none has. -/
  meanScore : α
  /-- How many members are at high risk. -/
  highRisk : Nat
  deriving DecidableEq, BEq

namespace Snapshot
variable {α : Type}

/-- The scores of the members that have one, in member order. -/
def memberScores (s : Snapshot α) (d : Domain α) : List (UserScore α) :=
  d.users.filterMap s.scores.find?

/-- Users at or above a risk level, in ascending order. -/
def usersAtLeast (s : Snapshot α) (level : RiskLevel) : List UserId :=
  (s.scores.entries.filter fun e => level ≤ e.2.level).map (·.1)

end Snapshot

variable {α : Type} [Scalar α]

def mean (xs : List α) : α :=
  if xs.isEmpty then 0.0 else Scalar.sum 0.0 xs / Scalar.ofCount xs.length

def Domain.summary (d : Domain α) (s : Snapshot α) : DomainSummary α where
  users := d.users.length
  proxies := d.proxies.length
  load := d.load
  interval := d.interval
  meanScore := mean ((s.memberScores d).map (·.score))
  highRisk := (s.memberScores d).countP (·.level.isHighRisk)

/-- The summary of every domain, under its key. -/
def Snapshot.summaries (s : Snapshot α) : Table DomainId (DomainSummary α) :=
  s.domains.mapValues (·.summary s)

open Wire in
instance : Wire (DomainSummary Float) where
  encode m := .record [
    ("user_count", encode m.users),
    ("proxy_count", encode m.proxies),
    ("load_factor", encode m.load),
    ("shuffle_frequency", encode m.interval),
    ("avg_user_score", encode m.meanScore),
    ("high_risk_count", encode m.highRisk)]
  decode? j := do
    let given ← Json.fields? ["user_count", "proxy_count", "load_factor", "shuffle_frequency",
      "avg_user_score", "high_risk_count"] j
    return {
      users := ← field? given "user_count"
      proxies := ← field? given "proxy_count"
      load := ← field? given "load_factor"
      interval := ← field? given "shuffle_frequency"
      meanScore := ← field? given "avg_user_score"
      highRisk := ← field? given "high_risk_count" }

end MovingTarget
