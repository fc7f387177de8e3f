import MovingTarget.Policy.AdaptiveInterval
import MovingTarget.Policy.Isolation
import MovingTarget.Policy.Layered
import MovingTarget.Policy.ScoreThreshold
import MovingTarget.Routing
/-!
# The built-in policies

The policies that can be chosen by name.
-/
namespace MovingTarget

inductive BuiltIn (α : Type) where
  | threshold (p : ScoreThreshold α)
  | adaptive (p : AdaptiveInterval α)
  | isolation (p : Isolation α)
  | layered (p : Layered α)
  deriving DecidableEq

/-- The step of a part, seen as a step of the whole. -/
def Outcome.map {σ τ α : Type} (f : σ → τ) (o : Outcome σ α) : Outcome τ α :=
  ⟨f o.next, o.decisions, o.log⟩

namespace BuiltIn
variable {α : Type} [Scalar α]

/-- The names by which a policy is chosen. -/
def kinds : List String := ["threshold", "adaptive", "isolation", "multi_level"]

/-- The policy of a kind, with its standard parameters. -/
def create (kind : String) : Except Fault (BuiltIn α) :=
  match kind with
  | "threshold" => .ok (.threshold .standard)
  | "adaptive" => .ok (.adaptive .standard)
  | "isolation" => .ok (.isolation .standard)
  | "multi_level" => .ok (.layered .standard)
  | _ => .error (.unknownPolicy kind)

instance : Policy (BuiltIn α) α where
  name
    | threshold p => Policy.name p
    | adaptive p => Policy.name p
    | isolation p => Policy.name p
    | layered p => Policy.name p
  evaluate b s := match b with
    | threshold p => (Policy.evaluate p s).map threshold
    | adaptive p => (Policy.evaluate p s).map adaptive
    | isolation p => (Policy.evaluate p s).map isolation
    | layered p => (Policy.evaluate p s).map layered
  configure b given := match b with
    | threshold p => .threshold (Policy.configure p given)
    | adaptive p => .adaptive (Policy.configure p given)
    | isolation p => .isolation (Policy.configure p given)
    | layered p => .layered (Policy.configure p given)
  reset
    | threshold p => .threshold (Policy.reset p)
    | adaptive p => .adaptive (Policy.reset p)
    | isolation p => .isolation (Policy.reset p)
    | layered p => .layered (Policy.reset p)
  statistics
    | threshold p => Policy.statistics p
    | adaptive p => Policy.statistics p
    | isolation p => Policy.statistics p
    | layered p => Policy.statistics p

end BuiltIn
end MovingTarget
