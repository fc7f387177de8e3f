import MovingTarget.Decision.Basic
import MovingTarget.DomainSummary
import MovingTarget.Log
/-!
# Policies

A policy turns each snapshot into an ordered list of decisions and remembers what it needs from one
epoch to the next. A step is a pure function; what it proposes and what it reports come back with
the policy's next state. What policies count, such as shuffles, intervals set or users moved, is a
natural number: a run is meant that ends before any such counter outgrows a word of 64 bits.

Policies that set shuffle intervals share a `Pace`: the interval between two shuffles shrinks as the
risk of a domain grows, since it is the base interval divided by one plus the risk.
-/
namespace MovingTarget

/-- What a step of something with states `σ` leaves behind. -/
structure Outcome (σ α : Type) where
  next : σ
  /-- The proposed decisions, in the order in which they are to be carried out. -/
  decisions : List (Decision α)
  log : List LogEntry

namespace Outcome
variable {σ τ ι α : Type}

/-- Nothing proposed, nothing reported. -/
def quiet (s : σ) : Outcome σ α := ⟨s, [], []⟩

/-- Go on from where this outcome leaves off. -/
def andThen (o : Outcome σ α) (f : σ → Outcome τ α) : Outcome τ α :=
  let o' := f o.next
  ⟨o'.next, o.decisions ++ o'.decisions, o.log ++ o'.log⟩

/-- One step for every item of a list, each from where the one before leaves off. -/
def forEach (step : σ → ι → Outcome σ α) : σ → List ι → Outcome σ α
  | s, [] => quiet s
  | s, i :: rest => (step s i).andThen fun s => forEach step s rest

end Outcome

/-- Numeric parameters or counters by name. -/
abbrev Figures (α : Type) := Table String α

/-- Parameters by name override a value. -/
def Figures.or {α : Type} (given : Figures α) (name : String) (current : α) : α :=
  (given.find? name).getD current

class Policy (σ : Type) (α : outParam Type) where
  /-- Shown to users, and the source of the policy's log entries. -/
  name : σ → String
  evaluate : σ → Snapshot α → Outcome σ α
  /-- Take over the parameters that the policy knows and keep the others as they are. -/
  configure : σ → Figures α → σ
  /-- Forget everything but the parameters. -/
  reset : σ → σ
  statistics : σ → Figures α
  /-- The reaction to an event between two epochs. -/
  onEvent : σ → Event → σ × Option (Decision α) := fun s _ => (s, none)

/-! ## Shuffle intervals -/

/-- Intervals in seconds. -/
structure Pace (α : Type) where
  base : α
  min : α
  max : α
  deriving DecidableEq, BEq

namespace Pace
variable {α : Type} [Scalar α]

def standard : Pace α := ⟨30.0, 5.0, 120.0⟩

/-- The base interval shortened by a risk. -/
def shortened (p : Pace α) (risk : α) : α := p.base / (1.0 + risk)

def configure (p : Pace α) (given : Figures α) : Pace α where
  base := given.or "base_frequency" p.base
  min := given.or "min_frequency" p.min
  max := given.or "max_frequency" p.max

end Pace

/-- The risk of a domain: its mean score, and a tenth for every member at high risk. -/
def DomainSummary.risk {α : Type} [Scalar α] (m : DomainSummary α) : α :=
  m.meanScore + 0.1 * Scalar.ofCount m.highRisk

end MovingTarget
