import MovingTarget.Policy.Basic
/-!
# Adapting the shuffle interval

Every domain whose shuffle interval is more than a second away from what its risk asks for gets
that interval.
-/
namespace MovingTarget

structure AdaptiveInterval (α : Type) where
  pace : Pace α
  adjustments : Nat
  deriving DecidableEq

namespace AdaptiveInterval
variable {α : Type} [Scalar α]

def displayName : String := "AdaptiveFrequency"

def standard : AdaptiveInterval α := ⟨.standard, 0⟩

/-- Changes up to this many seconds are not worth a decision. -/
def tolerance : α := 1.0

/-- The interval that a domain's risk asks for. -/
def target (p : AdaptiveInterval α) (m : DomainSummary α) : α :=
  Scalar.least (Scalar.greatest (p.pace.shortened m.risk) p.pace.min) p.pace.max

/-- The domains whose interval is off, in key order. -/
def mistimed (p : AdaptiveInterval α) (s : Snapshot α) : List (DomainId × DomainSummary α) :=
  s.summaries.entries.filter fun e => tolerance < Scalar.distance (p.target e.2) e.2.interval

def decision (p : AdaptiveInterval α) (e : DomainId × DomainSummary α) : Decision α :=
  .changeFrequency e.1 (p.target e.2)
    s!"Risk-adjusted interval (avg score {Scalar.fixed 2 e.2.meanScore})"

def entry (p : AdaptiveInterval α) (e : DomainId × DomainSummary α) : LogEntry where
  level := .verbose
  source := displayName
  message :=
    let before := Scalar.fixed 1 e.2.interval
    let after := Scalar.fixed 1 (p.target e.2)
    s!"Domain {e.1} frequency {before}s -> {after}s"

def evaluate (p : AdaptiveInterval α) (s : Snapshot α) : Outcome (AdaptiveInterval α) α :=
  let off := p.mistimed s
  { next := { p with adjustments := p.adjustments + off.length }
    decisions := off.map p.decision
    log := off.map p.entry }

instance : Policy (AdaptiveInterval α) α where
  name _ := displayName
  evaluate := evaluate
  configure p given := { p with pace := p.pace.configure given }
  reset p := { p with adjustments := 0 }
  statistics p := .ofList [
    ("base_frequency", p.pace.base),
    ("frequency_adjustments", Scalar.ofCount p.adjustments)]

end AdaptiveInterval
end MovingTarget
