import Mathlib.Data.Fintype.Basic
import MovingTarget.Settings.Basic
/-!
# The fields of settings

Settings are grouped in parts, and each part holds some fields. They are nothing but what their
fields hold (`get_ofFields`, `ofFields_get`), so a change to settings is told field by field.
-/
namespace MovingTarget.Settings

/-! ## Parts and fields -/

inductive Part where
  | scorer
  | ladder
  | pools
  | policy
  | engine
  deriving DecidableEq

inductive Field where
  | alpha
  | rateWeight
  | patternWeight
  | persistenceWeight
  | low
  | medium
  | high
  | exempt
  | ratio
  | kind
  | threshold
  | base
  | min
  | max
  | cap
  deriving DecidableEq

instance : Fintype Part where
  elems := {.scorer, .ladder, .pools, .policy, .engine}
  complete s := by cases s <;> decide

instance : Fintype Field where
  elems := {.alpha, .rateWeight, .patternWeight, .persistenceWeight, .low, .medium, .high, .exempt,
    .ratio, .kind, .threshold, .base, .min, .max, .cap}
  complete f := by cases f <;> decide

namespace Part

/-- The name of the section for a part. -/
def name : Part → String
  | scorer => "scorer"
  | ladder => "classifier"
  | pools => "strategy"
  | policy => "algorithm"
  | engine => "engine"

/-- The fields of a part, in the order in which they are written. -/
def fields : Part → List Field
  | scorer => [.alpha, .rateWeight, .patternWeight, .persistenceWeight]
  | ladder => [.low, .medium, .high, .exempt]
  | pools => [.ratio]
  | policy => [.kind, .threshold, .base, .min, .max]
  | engine => [.cap]

/-- What settings hold for a part. -/
abbrev Content (α : Type) : Part → Type
  | scorer => Scorer α
  | ladder => LadderSettings α
  | pools => ProxyPools α
  | policy => PolicySettings α
  | engine => CapSettings

end Part

namespace Field

/-- The name of a field within its section. -/
def name : Field → String
  | alpha => "alpha"
  | rateWeight => "rate_weight"
  | patternWeight => "pattern_weight"
  | persistenceWeight => "persistence_weight"
  | low => "low_threshold"
  | medium => "medium_threshold"
  | high => "high_threshold"
  | exempt => "vip_users"
  | ratio => "isolation_ratio"
  | kind => "kind"
  | threshold => "shuffle_threshold"
  | base => "base_frequency"
  | min => "min_frequency"
  | max => "max_frequency"
  | cap => "max_decisions_per_eval"

/-- The part that a field belongs to. -/
def part : Field → Part
  | alpha | rateWeight | patternWeight | persistenceWeight => .scorer
  | low | medium | high | exempt => .ladder
  | ratio => .pools
  | kind | threshold | base | min | max => .policy
  | cap => .engine

/-- What settings hold for a field. -/
abbrev Content (α : Type) : Field → Type
  | exempt => List UserId
  | kind => String
  | cap => UInt64
  | _ => α

theorem mem_fields_iff {f : Field} {s : Part} : f ∈ s.fields ↔ f.part = s := by
  revert f s
  decide

theorem name_injective : Function.Injective name := by
  intro f g
  revert f g
  decide

end Field

theorem Part.name_injective : Function.Injective Part.name := by
  intro s t
  revert s t
  decide

/-! ## Settings are what their fields hold -/

section Fields
variable {α : Type}

/-- One part of settings. -/
def part (c : Settings α) : (s : Part) → s.Content α
  | .scorer => c.scorer
  | .ladder => c.ladder
  | .pools => c.pools
  | .policy => c.policy
  | .engine => c.engine

/-- One field of settings. -/
def get (c : Settings α) : (f : Field) → f.Content α
  | .alpha => c.scorer.alpha
  | .rateWeight => c.scorer.rateWeight
  | .patternWeight => c.scorer.patternWeight
  | .persistenceWeight => c.scorer.persistenceWeight
  | .low => c.ladder.low
  | .medium => c.ladder.medium
  | .high => c.ladder.high
  | .exempt => c.ladder.exempt
  | .ratio => c.pools.ratio
  | .kind => c.policy.kind
  | .threshold => c.policy.threshold
  | .base => c.policy.pace.base
  | .min => c.policy.pace.min
  | .max => c.policy.pace.max
  | .cap => c.engine.cap

/-- The settings that hold the given things. -/
def ofFields (held : (f : Field) → f.Content α) : Settings α where
  scorer := ⟨held .alpha, held .rateWeight, held .patternWeight, held .persistenceWeight⟩
  ladder := ⟨held .low, held .medium, held .high, held .exempt⟩
  pools := ⟨held .ratio⟩
  policy := ⟨held .kind, held .threshold, ⟨held .base, held .min, held .max⟩⟩
  engine := ⟨held .cap⟩

@[simp] theorem get_ofFields (held : (f : Field) → f.Content α) (f : Field) :
    (ofFields held).get f = held f := by
  cases f <;> rfl

@[simp] theorem ofFields_get (c : Settings α) : ofFields c.get = c := rfl

/-- Settings are determined by their fields. -/
theorem ext_get {c d : Settings α} (h : ∀ f, c.get f = d.get f) : c = d := by
  rw [← ofFields_get c, ← ofFields_get d, funext h]

/-- A part is determined by its fields. -/
theorem part_congr {c d : Settings α} {s : Part} (h : ∀ f, f.part = s → c.get f = d.get f) :
    c.part s = d.part s := by
  cases s with
  | scorer =>
    change Scorer.mk (c.get .alpha) (c.get .rateWeight) (c.get .patternWeight)
      (c.get .persistenceWeight) = d.scorer
    rw [h _ rfl, h _ rfl, h _ rfl, h _ rfl]
    rfl
  | ladder =>
    change LadderSettings.mk (c.get .low) (c.get .medium) (c.get .high) (c.get .exempt) = d.ladder
    rw [h _ rfl, h _ rfl, h _ rfl, h _ rfl]
    rfl
  | pools => exact congrArg ProxyPools.mk (h .ratio rfl)
  | policy =>
    change PolicySettings.mk (c.get .kind) (c.get .threshold)
      ⟨c.get .base, c.get .min, c.get .max⟩ = d.policy
    rw [h _ rfl, h _ rfl, h _ rfl, h _ rfl, h _ rfl]
    rfl
  | engine => exact congrArg CapSettings.mk (h .cap rfl)

variable [Scalar α]

/-- The presets with some fields replaced by what the settings hold for them. -/
def overlay (c : Settings α) (fields : Finset Field) : Settings α :=
  ofFields fun f => if f ∈ fields then c.get f else standard.get f

theorem get_overlay (c : Settings α) (fields : Finset Field) (f : Field) :
    (c.overlay fields).get f = if f ∈ fields then c.get f else standard.get f :=
  get_ofFields _ f

/-- A part none of whose fields is replaced is preset. -/
theorem part_overlay {c : Settings α} {fields : Finset Field} {s : Part}
    (h : ∀ f ∈ fields, f.part ≠ s) : (c.overlay fields).part s = standard.part s := by
  refine part_congr fun f hf => ?_
  rw [get_overlay, if_neg fun hmem => h f hmem hf]

theorem overlay_univ (c : Settings α) : c.overlay Finset.univ = c := by
  simp [overlay]

end Fields
end MovingTarget.Settings
