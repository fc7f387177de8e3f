import MovingTarget.Engine.Basic
import MovingTarget.FileStore
import MovingTarget.Policy.Catalogue
/-!
# Settings

Settings are grouped by the part of the engine that they tune. They are taken as given; `validate`
tells whether they are consistent.
-/
namespace MovingTarget

/-- How users are classified. The exempt users stand in the order given. -/
structure LadderSettings (α : Type) where
  low : α
  medium : α
  high : α
  exempt : List UserId
  deriving DecidableEq, BEq

/-- Which policy is run, and with what. -/
structure PolicySettings (α : Type) where
  kind : String
  threshold : α
  pace : Pace α
  deriving DecidableEq, BEq

structure CapSettings where
  cap : UInt64
  deriving DecidableEq, BEq

structure Settings (α : Type) where
  scorer : Scorer α
  ladder : LadderSettings α
  pools : ProxyPools α
  policy : PolicySettings α
  engine : CapSettings
  deriving DecidableEq, BEq

/-- Why settings are refused. -/
inductive SettingsFault (α : Type) where
  | unreadable (path : String) (cause : FileFault)
  /-- The text is not that of settings. -/
  | malformed
  | thresholdOrder (low medium high : α)
  | intervalOrder (min max : α)
  | alphaOutside (alpha : α)
  | ratioOutside (ratio : α)
  | capNoCount (given : α)
  deriving DecidableEq

open Scalar in
/-- What is to be said about a fault. What the file system or the reader has to add to the first
two follows the colon. -/
def SettingsFault.message {α : Type} [Scalar α] : SettingsFault α → String
  | unreadable path _ => s!"failed to read config file {path}: "
  | malformed => "failed to parse config: "
  | thresholdOrder low medium high =>
    "invalid config: classifier thresholds must satisfy low < medium < high, "
      ++ s!"got {plain low} / {plain medium} / {plain high}"
  | intervalOrder min max =>
    s!"invalid config: algorithm.min_frequency ({plain min}) exceeds max_frequency ({plain max})"
  | alphaOutside alpha => s!"invalid config: scorer.alpha must be in [0, 1], got {plain alpha}"
  | ratioOutside ratio =>
    s!"invalid config: strategy.isolation_ratio must be in [0, 1], got {plain ratio}"
  | capNoCount given =>
    "invalid config: engine.max_decisions_per_eval must be a non-negative integer, "
      ++ s!"got {plain given}"

section Presets
variable {α : Type} [Scalar α]

def LadderSettings.standard : LadderSettings α where
  low := RiskLadder.standard.low
  medium := RiskLadder.standard.medium
  high := RiskLadder.standard.high
  exempt := []

def PolicySettings.standard : PolicySettings α where
  kind := "multi_level"
  threshold := Layered.standard.threshold
  pace := .standard

def CapSettings.standard : CapSettings := ⟨.ofNat Engine.standardCap⟩

def Settings.standard : Settings α := ⟨.standard, .standard, .standard, .standard, .standard⟩

end Presets

/-- The ladder of these thresholds; exempt users climb the standard one of theirs. -/
def LadderSettings.build {α : Type} [Scalar α] (l : LadderSettings α) : RiskLadder α :=
  { RiskLadder.standard with
    low := l.low, medium := l.medium, high := l.high, exempt := userSet l.exempt }

namespace Settings
variable {α : Type} [Scalar α]

/-- Whether a scalar is in the unit interval. -/
def inUnit (x : α) : Bool := decide (0.0 ≤ x) && decide (x ≤ 1.0)

def validate (c : Settings α) : Except (SettingsFault α) Unit :=
  let l := c.ladder
  let pace := c.policy.pace
  if !(decide (l.low < l.medium) && decide (l.medium < l.high)) then
    .error (.thresholdOrder l.low l.medium l.high)
  else if !decide (pace.min ≤ pace.max) then .error (.intervalOrder pace.min pace.max)
  else if !inUnit c.scorer.alpha then .error (.alphaOutside c.scorer.alpha)
  else if !inUnit c.pools.ratio then .error (.ratioOutside c.pools.ratio)
  else .ok ()

omit [Scalar α] in
/-- The parameters that the policy is configured with. A policy with a single threshold knows it
under the shorter name. -/
def policyParameters (c : Settings α) : Figures α := .ofList [
  ("shuffle_threshold", c.policy.threshold),
  ("threshold", c.policy.threshold),
  ("base_frequency", c.policy.pace.base),
  ("min_frequency", c.policy.pace.min),
  ("max_frequency", c.policy.pace.max)]

/-- The means that an engine with these settings has. -/
def toolkit (c : Settings α) : Toolkit α where
  score _ o current := c.scorer.next o current
  classify := c.ladder.build.classify
  selectProxy := (ProxyPools.ofRatio c.pools.ratio).select
  place _ domains := leastLoaded domains

/-- The engine that the settings ask for. -/
def engine? (c : Settings α) : Except Fault (Engine (BuiltIn α) α) := do
  let policy ← BuiltIn.create c.policy.kind
  return .fresh (Policy.configure policy c.policyParameters) c.toolkit c.engine.cap.toNat

end Settings
end MovingTarget
