import MovingTarget.Settings.Basic
/-!
# Settings from numbers by name

Every numeric setting can be given under its section and its field, with a dot between them. Other
names are passed over. The cap must be a whole number that is not negative.
-/
namespace MovingTarget

/-- The natural number that a double is; minus zero counts as zero. -/
def Decimal.Double.toNat? : Double → Option Nat
  | .finite negative significand exponent _ =>
    let up := significand <<< exponent.toNat
    let down := 1 <<< (-exponent).toNat
    if up % down = 0 ∧ (negative → up = 0) then some (up / down) else none
  | _ => none

namespace Settings

/-- The cap that a double gives, at most the largest word. -/
def capOf? (x : Float) : Option UInt64 :=
  (Decimal.Double.ofFloat x).toNat?.map fun n => .ofNat (min n (UInt64.size - 1))

/-- Settings with a number in the field of its name. -/
def put (c : Settings Float) : String × Float → Except (SettingsFault Float) (Settings Float)
  | ("scorer.alpha", x) => .ok { c with scorer.alpha := x }
  | ("scorer.rate_weight", x) => .ok { c with scorer.rateWeight := x }
  | ("scorer.pattern_weight", x) => .ok { c with scorer.patternWeight := x }
  | ("scorer.persistence_weight", x) => .ok { c with scorer.persistenceWeight := x }
  | ("classifier.low_threshold", x) => .ok { c with ladder.low := x }
  | ("classifier.medium_threshold", x) => .ok { c with ladder.medium := x }
  | ("classifier.high_threshold", x) => .ok { c with ladder.high := x }
  | ("strategy.isolation_ratio", x) => .ok { c with pools.ratio := x }
  | ("algorithm.shuffle_threshold", x) => .ok { c with policy.threshold := x }
  | ("algorithm.base_frequency", x) => .ok { c with policy.pace.base := x }
  | ("algorithm.min_frequency", x) => .ok { c with policy.pace.min := x }
  | ("algorithm.max_frequency", x) => .ok { c with policy.pace.max := x }
  | ("engine.max_decisions_per_eval", x) =>
    match capOf? x with
    | some cap => .ok { c with engine.cap := cap }
    | none => .error (.capNoCount x)
  | _ => .ok c

/-- The presets with the given numbers put in one after another, in the order of their names. -/
def ofFlat (given : Figures Float) : Except (SettingsFault Float) (Settings Float) :=
  given.entries.foldlM put .standard

end Settings
end MovingTarget
