import MovingTarget.Scalar
import MovingTarget.Vocabulary
/-!
# Snapshots

A snapshot describes the network at one moment: its domains with their proxies and users, the score
of every user, and what was measured, detected and reported. The key under which a record is kept
need not be the id inside the record.
-/
namespace MovingTarget

abbrev DomainId := UInt32
abbrev UserId := UInt32
abbrev ProxyId := UInt32
abbrev NodeId := UInt32

/-- Nanoseconds since the start of the run. -/
abbrev Timestamp := UInt64

/-- How dangerous a user is taken to be, from least to most. -/
inductive RiskLevel where
  | low
  | medium
  | high
  | critical
  deriving DecidableEq, Inhabited

namespace RiskLevel

def rank : RiskLevel → Nat
  | low => 0
  | medium => 1
  | high => 2
  | critical => 3

instance : LE RiskLevel := ⟨fun a b => a.rank ≤ b.rank⟩

instance (a b : RiskLevel) : Decidable (a ≤ b) := inferInstanceAs (Decidable (a.rank ≤ b.rank))

def isHighRisk (l : RiskLevel) : Bool := high ≤ l

instance : Vocabulary RiskLevel where
  noun := "risk level"
  all := [low, medium, high, critical]
  name
    | low => "LOW"
    | medium => "MEDIUM"
    | high => "HIGH"
    | critical => "CRITICAL"

end RiskLevel

/-- The family of attack that a detector suspects. -/
inductive AttackType where
  | none
  | dos
  | probe
  | portScan
  | routeMonitor
  | synFlood
  | udpFlood
  | httpFlood
  deriving DecidableEq, Inhabited

instance : Vocabulary AttackType where
  noun := "attack type"
  all := [.none, .dos, .probe, .portScan, .routeMonitor, .synFlood, .udpFlood, .httpFlood]
  name
    | .none => "NONE"
    | .dos => "DOS"
    | .probe => "PROBE"
    | .portScan => "PORT_SCAN"
    | .routeMonitor => "ROUTE_MONITOR"
    | .synFlood => "SYN_FLOOD"
    | .udpFlood => "UDP_FLOOD"
    | .httpFlood => "HTTP_FLOOD"

/-- What an event reports. -/
inductive EventType where
  | shuffleTriggered
  | shuffleCompleted
  | domainSplit
  | domainMerge
  | userMigrated
  | attackDetected
  | attackStarted
  | attackStopped
  | proxySwitched
  | thresholdExceeded
  | scoreUpdated
  deriving DecidableEq, Inhabited

instance : Vocabulary EventType where
  noun := "event type"
  all := [.shuffleTriggered, .shuffleCompleted, .domainSplit, .domainMerge, .userMigrated,
    .attackDetected, .attackStarted, .attackStopped, .proxySwitched, .thresholdExceeded,
    .scoreUpdated]
  name
    | .shuffleTriggered => "SHUFFLE_TRIGGERED"
    | .shuffleCompleted => "SHUFFLE_COMPLETED"
    | .domainSplit => "DOMAIN_SPLIT"
    | .domainMerge => "DOMAIN_MERGE"
    | .userMigrated => "USER_MIGRATED"
    | .attackDetected => "ATTACK_DETECTED"
    | .attackStarted => "ATTACK_STARTED"
    | .attackStopped => "ATTACK_STOPPED"
    | .proxySwitched => "PROXY_SWITCHED"
    | .thresholdExceeded => "THRESHOLD_EXCEEDED"
    | .scoreUpdated => "SCORE_UPDATED"

/-- Traffic of one proxy over one epoch. -/
structure Traffic (α : Type) where
  packetsIn : UInt64
  packetsOut : UInt64
  bytesIn : UInt64
  bytesOut : UInt64
  packetRate : α
  byteRate : α
  activeConnections : UInt32
  averageLatency : α
  deriving DecidableEq, BEq

/-- What a detector signals about a proxy. -/
structure Observation (α : Type) where
  rateAnomaly : α
  connectionAnomaly : α
  patternAnomaly : α
  persistence : α
  suspected : AttackType
  confidence : α
  time : Timestamp
  deriving DecidableEq, BEq

/-- The standing of one user. -/
structure UserScore (α : Type) where
  user : UserId
  score : α
  level : RiskLevel
  updated : Timestamp
  deriving DecidableEq, BEq

/-- A group of proxies and users that are shuffled together. -/
structure Domain (α : Type) where
  id : DomainId
  name : String
  proxies : List ProxyId
  users : List UserId
  load : α
  /-- Seconds between two shuffles. -/
  interval : α
  deriving DecidableEq, BEq

/-- A report from the network. -/
structure Event where
  type : EventType
  time : Timestamp
  source : NodeId
  metadata : Table String String
  deriving DecidableEq, BEq

structure Snapshot (α : Type) where
  time : Timestamp
  domains : Table DomainId (Domain α)
  scores : Table UserId (UserScore α)
  traffic : Table ProxyId (Traffic α)
  observations : Table ProxyId (Observation α)
  events : List Event
  deriving DecidableEq, BEq

section Presets
variable {α : Type} [Scalar α]

def Traffic.quiet : Traffic α := ⟨0, 0, 0, 0, 0.0, 0.0, 0, 0.0⟩

def Observation.quiet : Observation α := ⟨0.0, 0.0, 0.0, 0.0, .none, 0.0, 0⟩

def UserScore.unknown : UserScore α := ⟨0, 0.0, .low, 0⟩

/-- A domain without members, shuffled every second. -/
def Domain.vacant : Domain α := ⟨0, "", [], [], 0.0, 1.0⟩

end Presets

def Event.unspecified : Event := ⟨.shuffleTriggered, 0, 0, ∅⟩

namespace Snapshot
variable {α : Type}

def empty (time : Timestamp) : Snapshot α := ⟨time, ∅, ∅, ∅, ∅, []⟩

def seconds [Scalar α] (s : Snapshot α) : α := Scalar.ofCount s.time.toNat / 1000000000.0

/-- Add a domain under its own id. -/
def addDomain (s : Snapshot α) (d : Domain α) : Snapshot α :=
  { s with domains := s.domains.insert d.id d }

/-- Add a score under its own user. -/
def addScore (s : Snapshot α) (u : UserScore α) : Snapshot α :=
  { s with scores := s.scores.insert u.user u }

def addTraffic (s : Snapshot α) (p : ProxyId) (t : Traffic α) : Snapshot α :=
  { s with traffic := s.traffic.insert p t }

def addObservation (s : Snapshot α) (p : ProxyId) (o : Observation α) : Snapshot α :=
  { s with observations := s.observations.insert p o }

def addEvent (s : Snapshot α) (e : Event) : Snapshot α := { s with events := s.events ++ [e] }

end Snapshot

def Domain.hasUser {α : Type} (d : Domain α) (u : UserId) : Bool := d.users.contains u

/-- The id in the first record, in key order, that lists the user. -/
def Snapshot.domainOf? {α : Type} (s : Snapshot α) (u : UserId) : Option DomainId :=
  (s.domains.values.find? fun d => d.hasUser u).map (·.id)

end MovingTarget
