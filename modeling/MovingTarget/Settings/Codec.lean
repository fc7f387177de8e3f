import MovingTarget.Settings.Basic
/-!
# Settings as text and in files

Settings are an object of sections; a section or a field that is left out takes its preset, and
members under other names are passed over.
-/
namespace MovingTarget
open Wire

variable [Json.TextLayer]

instance : Wire (Scorer Float) where
  encode k := .record [
    ("alpha", encode k.alpha),
    ("rate_weight", encode k.rateWeight),
    ("pattern_weight", encode k.patternWeight),
    ("persistence_weight", encode k.persistenceWeight)]
  decode? j := do
    let given ← Json.fields? ["alpha", "rate_weight", "pattern_weight", "persistence_weight"] j
    let preset : Scorer Float := .standard
    return {
      alpha := ← fieldOr? given "alpha" preset.alpha
      rateWeight := ← fieldOr? given "rate_weight" preset.rateWeight
      patternWeight := ← fieldOr? given "pattern_weight" preset.patternWeight
      persistenceWeight := ← fieldOr? given "persistence_weight" preset.persistenceWeight }

instance : Wire (LadderSettings Float) where
  encode l := .record [
    ("low_threshold", encode l.low),
    ("medium_threshold", encode l.medium),
    ("high_threshold", encode l.high),
    ("vip_users", encode l.exempt)]
  decode? j := do
    let given ← Json.fields? ["low_threshold", "medium_threshold", "high_threshold", "vip_users"] j
    let preset : LadderSettings Float := .standard
    return {
      low := ← fieldOr? given "low_threshold" preset.low
      medium := ← fieldOr? given "medium_threshold" preset.medium
      high := ← fieldOr? given "high_threshold" preset.high
      exempt := ← fieldOr? given "vip_users" preset.exempt }

instance : Wire (ProxyPools Float) where
  encode p := .record [("isolation_ratio", encode p.ratio)]
  decode? j := do
    let given ← Json.fields? ["isolation_ratio"] j
    return { ratio := ← fieldOr? given "isolation_ratio" ProxyPools.standard.ratio }

instance : Wire (PolicySettings Float) where
  encode p := .record [
    ("kind", encode p.kind),
    ("shuffle_threshold", encode p.threshold),
    ("base_frequency", encode p.pace.base),
    ("min_frequency", encode p.pace.min),
    ("max_frequency", encode p.pace.max)]
  decode? j := do
    let given ← Json.fields? ["kind", "shuffle_threshold", "base_frequency", "min_frequency",
      "max_frequency"] j
    let preset : PolicySettings Float := .standard
    return {
      kind := ← fieldOr? given "kind" preset.kind
      threshold := ← fieldOr? given "shuffle_threshold" preset.threshold
      pace := {
        base := ← fieldOr? given "base_frequency" preset.pace.base
        min := ← fieldOr? given "min_frequency" preset.pace.min
        max := ← fieldOr? given "max_frequency" preset.pace.max } }

instance : Wire CapSettings where
  encode c := .record [("max_decisions_per_eval", encode c.cap)]
  decode? j := do
    let given ← Json.fields? ["max_decisions_per_eval"] j
    return { cap := ← fieldOr? given "max_decisions_per_eval" CapSettings.standard.cap }

instance : Wire (Settings Float) where
  encode c := .record [
    ("scorer", encode c.scorer),
    ("classifier", encode c.ladder),
    ("strategy", encode c.pools),
    ("algorithm", encode c.policy),
    ("engine", encode c.engine)]
  decode? j := do
    let given ← Json.fields? ["scorer", "classifier", "strategy", "algorithm", "engine"] j
    return {
      scorer := ← fieldOr? given "scorer" .standard
      ladder := ← fieldOr? given "classifier" .standard
      pools := ← fieldOr? given "strategy" .standard
      policy := ← fieldOr? given "algorithm" .standard
      engine := ← fieldOr? given "engine" .standard }

namespace Settings

/-- The settings as indented text. -/
def toText (c : Settings Float) : String := Json.TextLayer.lines (encode c)

def ofText (text : String) : Except (SettingsFault Float) (Settings Float) :=
  match (Json.TextLayer.read? text).bind decode? with
  | some c => .ok c
  | none => .error .malformed

/-! ## Files -/

def load (f : FileStore) (path : String) : Except (SettingsFault Float) (Settings Float) :=
  match f.readText path with
  | .ok text => ofText text
  | .error cause => .error (.unreadable path cause)

/-- Write the settings to a file, in place of what was there. -/
def save (f : FileStore) (path : String) (c : Settings Float) :
    Except (SettingsFault Float) FileStore :=
  (f.write path c.toText.toUTF8).mapError (.unreadable path)

end Settings
end MovingTarget
