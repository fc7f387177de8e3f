import MovingTarget.Policy.Basic
/-!
# Shuffling above a threshold

Every domain whose mean score exceeds the threshold is shuffled, in every epoch anew.
-/
namespace MovingTarget

structure ScoreThreshold (α : Type) where
  threshold : α
  evaluations : Nat
  shuffles : Nat
  deriving DecidableEq

namespace ScoreThreshold
variable {α : Type} [Scalar α]

def displayName : String := "SimpleThreshold"

def standard : ScoreThreshold α := ⟨0.6, 0, 0⟩

/-- The domains above the threshold with their summaries, in key order. -/
def exceeding (p : ScoreThreshold α) (s : Snapshot α) : List (DomainId × DomainSummary α) :=
  s.summaries.entries.filter fun e => p.threshold < e.2.meanScore

def decision (p : ScoreThreshold α) (e : DomainId × DomainSummary α) : Decision α :=
  .triggerShuffle e.1 .scoreDriven
    s!"Average score {Scalar.fixed 2 e.2.meanScore} exceeds threshold {Scalar.fixed 2 p.threshold}"

def evaluate (p : ScoreThreshold α) (s : Snapshot α) : Outcome (ScoreThreshold α) α :=
  let hot := p.exceeding s
  { next := { p with evaluations := p.evaluations + 1, shuffles := p.shuffles + hot.length }
    decisions := hot.map p.decision
    log := hot.map fun e => ⟨.verbose, displayName, s!"Triggered shuffle for domain {e.1}"⟩ }

instance : Policy (ScoreThreshold α) α where
  name _ := displayName
  evaluate := evaluate
  configure p given := { p with threshold := given.or "threshold" p.threshold }
  reset p := { p with evaluations := 0, shuffles := 0 }
  statistics p := .ofList [
    ("threshold", p.threshold),
    ("evaluations", Scalar.ofCount p.evaluations),
    ("shuffles_triggered", Scalar.ofCount p.shuffles)]

end ScoreThreshold
end MovingTarget
