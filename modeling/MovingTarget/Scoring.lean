import MovingTarget.Snapshot.Basic
/-!
# Scores

A scorer moves a user's score towards what was observed: it blends three signals by weight and
smooths the blend into the score so far. The anomaly score of a proxy measures how far its traffic
is from a baseline. Both stay in the unit interval for any input.

A ladder turns a score into a risk level by thresholds; a score has to exceed a threshold to reach
the level above it. Exempt users climb a ladder of their own, which has no middle level.
-/
namespace MovingTarget
open Scalar

/-- Exponential smoothing of a weighted blend of signals. -/
structure Scorer (α : Type) where
  /-- The share of the newest observation. -/
  alpha : α
  rateWeight : α
  patternWeight : α
  persistenceWeight : α
  deriving DecidableEq, BEq

namespace Scorer
variable {α : Type} [Scalar α]

def standard : Scorer α := ⟨0.3, 0.5, 0.3, 0.2⟩

/-- The weighted blend of an observation's signals, before smoothing. -/
def blend (k : Scorer α) (o : Observation α) : α :=
  k.rateWeight * unit o.rateAnomaly + k.patternWeight * unit o.patternAnomaly
    + k.persistenceWeight * unit o.persistence

/-- The score that follows `current` once `o` has been seen. -/
def next (k : Scorer α) (o : Observation α) (current : α) : α :=
  let alpha := unit k.alpha
  unit (alpha * k.blend o + (1.0 - alpha) * unit current)

end Scorer

/-- What each measure of traffic counts for. -/
structure AnomalyWeights (α : Type) where
  packetRate : α
  byteRate : α
  connections : α
  latency : α
  deriving DecidableEq

section Anomaly
variable {α : Type} [Scalar α]

def AnomalyWeights.standard : AnomalyWeights α := ⟨0.4, 0.3, 0.2, 0.1⟩

/-- How far `current` is from a positive `base`, relative to it and at most one. -/
def deviation (current base : α) : α :=
  if 0.0 < base then least (distance current base / base) 1.0 else 0.0

def AnomalyWeights.score (w : AnomalyWeights α) (current base : Traffic α) : α :=
  unit (w.packetRate * deviation current.packetRate base.packetRate
    + w.byteRate * deviation current.byteRate base.byteRate
    + w.connections * deviation (ofCount current.activeConnections.toNat)
        (ofCount base.activeConnections.toNat)
    + w.latency * deviation current.averageLatency base.averageLatency)

end Anomaly

/-! ## From scores to levels -/

structure RiskLadder (α : Type) where
  low : α
  medium : α
  high : α
  exemptHigh : α
  exemptCritical : α
  /-- The exempt users, ascending. -/
  exempt : Table UserId Unit
  deriving DecidableEq

/-- A set of users, in ascending order whatever the order of the list. -/
def userSet (users : List UserId) : Table UserId Unit := .ofList (users.map (·, ()))

namespace RiskLadder
variable {α : Type} [Scalar α]

def standard : RiskLadder α := ⟨0.25, 0.50, 0.75, 0.85, 0.95, ∅⟩

omit [Scalar α] in
def isExempt (l : RiskLadder α) (u : UserId) : Bool := l.exempt.contains u

def classify (l : RiskLadder α) (u : UserId) (score : α) : RiskLevel :=
  if l.isExempt u then
    if l.exemptCritical < score then .critical
    else if l.exemptHigh < score then .high
    else .low
  else
    if l.high < score then .critical
    else if l.medium < score then .high
    else if l.low < score then .medium
    else .low

end RiskLadder

/-- The ladder that is used when none is configured, the same for every user. -/
def fixedLadder {α : Type} [Scalar α] (score : α) : RiskLevel :=
  if 0.85 < score then .critical
  else if 0.60 < score then .high
  else if 0.30 < score then .medium
  else .low

end MovingTarget
