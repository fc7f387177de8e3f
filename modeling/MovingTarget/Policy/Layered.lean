import MovingTarget.Policy.Basic
/-!
# The layered policy

Per domain, in key order: a shuffle when the mean score exceeds a threshold, not more often than the
shortest interval allows; a shuffle interval that follows the risk and its trend; one shuffle away
from attackers at the first sign of an attack, and none after that until a reset. Then up to five
users at high risk are spread towards the domains that hold the fewest of their kind.

The mean scores of a domain are kept newest first, in a window.
-/
namespace MovingTarget

structure Layered (α : Type) where
  /-- The mean score that has to be exceeded for a shuffle. -/
  threshold : α
  pace : Pace α
  /-- The lowest level of the users that are spread. -/
  isolationLevel : RiskLevel
  /-- When a domain was last shuffled for its score, in seconds. -/
  lastShuffle : Table DomainId α
  /-- The latest mean scores of every domain seen, newest first. -/
  history : Table DomainId (List α)
  /-- Whether an attack has been seen since the last reset. -/
  alarmed : Bool
  deriving DecidableEq

namespace Layered

def displayName : String := "MultiLevelDefense"

/-- How many mean scores are kept for a domain. -/
def historyCapacity : Nat := 100

/-- How many users at high risk are looked at in one epoch. -/
def isolationsPerEpoch : Nat := 5

/-- A domain with this many users takes no further ones. -/
def domainCapacity : Nat := 500

section Parameters
variable {α : Type} [Scalar α]

def standard : Layered α := ⟨0.6, .standard, .high, ∅, ∅, false⟩

/-- A trend beyond this slope, up or down, counts. -/
def trendSlope : α := 0.1

/-- Changes up to this many seconds are not worth a decision. -/
def tolerance : α := 2.0

/-- A rise by more than this over two epochs is a sign of an attack. -/
def spike : α := 0.3

/-- A detector has to be surer than this of an attack. -/
def attackConfidence : α := 0.8

/-- The rate has to be more anomalous than this in an attack. -/
def attackRate : α := 0.7

end Parameters

variable {α : Type}

def entry (level : Verbosity) (message : String) : LogEntry := ⟨level, displayName, message⟩

/-- The mean scores kept for a domain, newest first. -/
def scores (p : Layered α) (d : DomainId) : List α := (p.history.find? d).getD []

/-- Put the newest mean score in front of the window. -/
def remember (p : Layered α) (d : DomainId) (score : α) : Layered α :=
  { p with history := p.history.insert d ((score :: p.scores d).take historyCapacity) }

variable [Scalar α]

/-! ## Shuffles above the threshold -/

/-- When the domain was last shuffled for its score; the start of the run if it never was. -/
def lastShuffleTime (p : Layered α) (d : DomainId) : α := (p.lastShuffle.find? d).getD 0.0

/-- The mean score asks for a shuffle and the last one is long enough ago. -/
def shuffleDue (p : Layered α) (now : α) (d : DomainId) (m : DomainSummary α) : Bool :=
  !decide (m.meanScore ≤ p.threshold) && !decide (now - p.lastShuffleTime d ≤ p.pace.min)

def shuffle (p : Layered α) (now : α) (d : DomainId) (m : DomainSummary α) :
    Outcome (Layered α) α :=
  if p.shuffleDue now d m then
    { next := { p with lastShuffle := p.lastShuffle.insert d now }
      decisions := [.triggerShuffle d .scoreDriven
        s!"Avg score {Scalar.fixed 2 m.meanScore} > threshold {Scalar.fixed 2 p.threshold}"]
      log := [entry .verbose s!"Triggered shuffle for domain {d}"] }
  else .quiet p

/-! ## Intervals that follow the trend -/

/-- The slope over the five latest mean scores, if there are as many. -/
def trend? : List α → Option α
  | last :: _ :: _ :: _ :: first :: _ => some ((last - first) / 5.0)
  | _ => none

/-- The risk of a domain, weighted up when it rises and down when it falls. -/
def trendedRisk (m : DomainSummary α) (trend : α) : α :=
  if trendSlope < trend then m.risk * 1.5
  else if trend < -trendSlope then m.risk * 0.7
  else m.risk

/-- The interval that a domain's risk and its trend ask for; the base interval while there is no
trend yet. -/
def target (p : Layered α) (d : DomainId) (m : DomainSummary α) : α :=
  match trend? (p.scores d) with
  | none => p.pace.base
  | some trend =>
    Scalar.greatest (Scalar.least (p.pace.shortened (trendedRisk m trend)) p.pace.max) p.pace.min

def adjust (p : Layered α) (d : DomainId) (m : DomainSummary α) : Outcome (Layered α) α :=
  let interval := p.target d m
  if tolerance < Scalar.distance interval m.interval then
    { next := p
      decisions :=
        [.changeFrequency d interval "Adaptive frequency adjustment based on risk trend"]
      log := [] }
  else .quiet p

/-! ## Attacks -/

/-- Some detector is sure of an attack. -/
def attackObserved (s : Snapshot α) : Bool :=
  s.observations.values.any fun o =>
    decide (attackConfidence < o.confidence) && decide (attackRate < o.rateAnomaly)

/-- The newest mean score is a spike above the one two epochs before. -/
def spiked : List α → Bool
  | last :: _ :: first :: _ => decide (spike < last - first)
  | _ => false

def alarm (p : Layered α) (s : Snapshot α) (d : DomainId) : Outcome (Layered α) α :=
  if !p.alarmed && (attackObserved s || spiked (p.scores d)) then
    { next := { p with alarmed := true }
      decisions := [.triggerShuffle d .attackerAvoid "Attack pattern detected"]
      log := [entry .normal s!"Attack pattern detected in domain {d}"] }
  else .quiet p

/-- Everything that concerns one domain. -/
def assess (s : Snapshot α) (p : Layered α) (e : DomainId × DomainSummary α) :
    Outcome (Layered α) α :=
  ((((Outcome.quiet (p.remember e.1 e.2.meanScore)).andThen
    fun p => p.shuffle s.seconds e.1 e.2).andThen
    fun p => p.adjust e.1 e.2).andThen
    fun p => p.alarm s e.1)

/-! ## Spreading users at high risk -/

omit [Scalar α] in
/-- The better of the best domain so far and another one that comes later in key order: the one
with fewer members at high risk, of those that have room and are not the user's own. -/
def roomier (current : DomainId) (best : Option (DomainId × Nat))
    (e : DomainId × DomainSummary α) : Option (DomainId × Nat) :=
  if e.1 = current ∨ domainCapacity ≤ e.2.users then best
  else match best with
    | some (k, count) => if e.2.highRisk < count then some (e.1, e.2.highRisk) else some (k, count)
    | none => some (e.1, e.2.highRisk)

omit [Scalar α] in
/-- Where a user from domain `current` is moved. -/
def destination? (summaries : Table DomainId (DomainSummary α)) (current : DomainId) :
    Option DomainId :=
  (summaries.entries.foldl (roomier current) none).map (·.1)

omit [Scalar α] in
/-- What spreading does with one user. -/
def spreadUser (s : Snapshot α) (summaries : Table DomainId (DomainSummary α)) (p : Layered α)
    (u : UserId) : Outcome (Layered α) α :=
  match s.domainOf? u with
  | none => ⟨p, [], [entry .debug s!"User {u} has no domain, skipping"]⟩
  | some current =>
    match destination? summaries current with
    | some d => ⟨p, [.migrateUser u d s!"Distributing high-risk user {u}"], []⟩
    | none => .quiet p

omit [Scalar α] in
/-- The first users at the isolation level or above, one after the other. -/
def spread (s : Snapshot α) (summaries : Table DomainId (DomainSummary α)) (p : Layered α) :
    Outcome (Layered α) α :=
  Outcome.forEach (spreadUser s summaries) p
    ((s.usersAtLeast p.isolationLevel).take isolationsPerEpoch)

def evaluate (p : Layered α) (s : Snapshot α) : Outcome (Layered α) α :=
  let summaries := s.summaries
  (Outcome.forEach (assess s) p summaries.entries).andThen (spread s summaries)

/-! ## Statistics -/

/-- The mean of the newest scores, if any domain has been seen. -/
def currentRisk? (p : Layered α) : Option α :=
  let latest := p.history.values.filterMap List.head?
  if latest.isEmpty then none
  else some (Scalar.sum (-0.0) latest / Scalar.ofCount latest.length)

def statistics (p : Layered α) : Figures α :=
  .ofList ([
    ("attack_detected", if p.alarmed then 1.0 else 0.0),
    ("domains_tracked", Scalar.ofCount p.history.size)]
    ++ (p.currentRisk?.map fun r => ("avg_current_risk", r)).toList)

instance : Policy (Layered α) α where
  name _ := displayName
  evaluate := evaluate
  configure p given :=
    { p with
      threshold := given.or "shuffle_threshold" p.threshold
      pace := p.pace.configure given }
  reset p := { p with lastShuffle := ∅, history := ∅, alarmed := false }
  statistics := statistics

end Layered
end MovingTarget
