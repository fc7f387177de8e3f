import MovingTarget.Decision.Codec
import MovingTarget.Policy.Basic
import MovingTarget.Routing
import MovingTarget.Scoring
/-!
# The engine

An engine drives one policy. It hands on at most a capped number of decisions per epoch, in the
order proposed, records what it hands on, and counts what it handed on and what it dropped. Beside
the policy it holds the means to score, classify and place users.

What was handed on is kept with the time it was taken for. When this history outgrows its limit, the
older half goes. Counters are natural numbers: a run is meant that ends before any of them outgrows
a word of 64 bits.
-/
namespace MovingTarget

/-! ## The history of an engine -/

/-- A decision and the time of the epoch or event that it answered. -/
structure HistoryEntry (α : Type) where
  time : Timestamp
  decision : Decision α
  deriving DecidableEq, BEq

open Wire in
instance [Json.TextLayer] : Wire (HistoryEntry Float) where
  encode e := .record [("timestamp", encode e.time), ("decision", encode e.decision)]
  decode? j := do
    let given ← Json.fields? ["timestamp", "decision"] j
    return {
      time := ← field? given "timestamp"
      decision := ← (given.lookup "decision").bind (Decision.ofJson? (Decision.depthLimit - 1)) }

/-- Entries, oldest first. -/
structure History (α : Type) where
  entries : Array (HistoryEntry α)
  deriving DecidableEq

namespace History
variable {α : Type}

def empty : History α := ⟨#[]⟩

/-- How many entries are kept at most. -/
def limit : Nat := 10000

def size (h : History α) : Nat := h.entries.size

def record (h : History α) (e : HistoryEntry α) : History α :=
  let entries := h.entries.push e
  if limit < entries.size then ⟨entries.extract (entries.size / 2) entries.size⟩ else ⟨entries⟩

/-- Record one decision after the other for the same time. -/
def recordAll (h : History α) (time : Timestamp) (ds : List (Decision α)) : History α :=
  ds.foldl (fun h d => h.record ⟨time, d⟩) h

/-- The latest entries, at most `count`, oldest first. -/
def latest (h : History α) (count : Nat) : List (HistoryEntry α) :=
  h.entries.toList.drop (h.size - count)

end History

/-! ## Engines -/

/-- How users are scored, classified, given a proxy and given a domain. -/
structure Toolkit (α : Type) where
  score : UserId → Observation α → α → α
  classify : UserId → α → RiskLevel
  selectProxy : UserId → List ProxyId → RiskLevel → Except Fault ProxyId
  place : UserId → Table DomainId (Domain α) → Except Fault DomainId

def Toolkit.standard {α : Type} [Scalar α] : Toolkit α where
  score _ o current := Scorer.standard.next o current
  classify _ score := fixedLadder score
  selectProxy u proxies _ := dealProxy proxies u
  place _ domains := leastLoaded domains

structure Engine (σ α : Type) where
  policy : σ
  tools : Toolkit α
  /-- How many decisions are handed on per epoch. -/
  cap : Nat
  history : History α
  evaluations : Nat
  /-- Decisions handed on, in epochs and after events. -/
  decisions : Nat
  /-- Decisions proposed beyond the cap. -/
  dropped : Nat

namespace Engine
variable {σ α : Type}

/-- The cap of an engine that is not given one. -/
def standardCap : Nat := 10

/-- The source of the engine's own log entries. -/
def source : String := "engine"

/-- An engine that has not run yet. -/
def fresh (policy : σ) (tools : Toolkit α) (cap : Nat) : Engine σ α :=
  ⟨policy, tools, cap, .empty, 0, 0, 0⟩

variable [Policy σ α]

def configure (e : Engine σ α) (given : Figures α) : Engine σ α :=
  { e with policy := Policy.configure e.policy given }

def dropEntry (e : Engine σ α) (dropped : Nat) : LogEntry where
  level := .normal
  source := source
  message := s!"Dropped {dropped} decisions over the limit of {e.cap} per evaluation"

def epochEntry [Scalar α] (evaluation : Nat) (s : Snapshot α) (returned : Nat) : LogEntry where
  level := .verbose
  source := source
  message :=
    let time := Scalar.fixed 3 s.seconds
    s!"Evaluation {evaluation} at t={time}s returned {returned} decisions"

/-- One epoch. -/
def evaluate [Scalar α] (e : Engine σ α) (s : Snapshot α) : Outcome (Engine σ α) α :=
  let proposed := Policy.evaluate e.policy s
  let returned := proposed.decisions.take e.cap
  let dropped := proposed.decisions.length - e.cap
  { next :=
      { e with
        policy := proposed.next
        history := e.history.recordAll s.time returned
        evaluations := e.evaluations + 1
        decisions := e.decisions + returned.length
        dropped := e.dropped + dropped }
    decisions := returned
    log := proposed.log ++ (if 0 < dropped then [e.dropEntry dropped] else [])
      ++ [epochEntry (e.evaluations + 1) s returned.length] }

/-- Pass an event to the policy and record what it answers, for the time of the event. -/
def handleEvent (e : Engine σ α) (event : Event) : Engine σ α × Option (Decision α) :=
  match Policy.onEvent e.policy event with
  | (policy, none) => ({ e with policy }, none)
  | (policy, some d) =>
    ({ e with
        policy
        history := e.history.record ⟨event.time, d⟩
        decisions := e.decisions + 1 },
      some d)

/-- The mean number of decisions per evaluation. -/
def meanDecisions [Scalar α] (e : Engine σ α) : α :=
  if 0 < e.evaluations then Scalar.ofCount e.decisions / Scalar.ofCount e.evaluations else 0.0

/-- The engine's own counters, and the policy's under a name of their own. -/
def statistics [Scalar α] (e : Engine σ α) : Figures α :=
  .ofList ([
    ("total_evaluations", Scalar.ofCount e.evaluations),
    ("total_decisions", Scalar.ofCount e.decisions),
    ("truncated_decisions", Scalar.ofCount e.dropped),
    ("avg_decisions_per_eval", e.meanDecisions)]
    ++ (Policy.statistics e.policy).entries.map fun f => (s!"algorithm.{f.1}", f.2))

/-- Forget everything but parameters, tools and cap. -/
def reset (e : Engine σ α) : Engine σ α := fresh (Policy.reset e.policy) e.tools e.cap

omit [Policy σ α] in
/-- The decision that brings a user's score up to date with an observation. -/
def rescore [Scalar α] (e : Engine σ α) (u : UserId) (o : Observation α) (current : α) :
    Decision α :=
  let score := e.tools.score u o current
  let level := Vocabulary.name (e.tools.classify u score)
  .rescore u score s!"Rescored to {Scalar.fixed 3 score} ({level})"

omit [Policy σ α] in
/-- Where a joining user is placed, and what is reported about it. -/
def place (e : Engine σ α) (u : UserId) (s : Snapshot α) :
    Except Fault DomainId × List LogEntry :=
  match e.tools.place u s.domains with
  | .ok d => (.ok d, [⟨.debug, source, s!"Assigned user {u} to domain {d}"⟩])
  | .error f => (.error f, [])

end Engine
end MovingTarget
