import MovingTarget.Decision.Basic
/-!
# Decisions on the wire

A decision is an object whose member `action` names what it does and whose other members are the
fields of that action, all of them required. The tag may stand anywhere in the object. A decision
may also be given as an array of the tag and the fields in their order.

Since the tag may stand anywhere, the object is held in full first. Then every number in it has to
be read as a double and every string has to be a text, in members that nobody reads as much as in
the others.
-/
namespace MovingTarget
open Wire

/-! ## Values held before their meaning is known -/

namespace Json
variable [TextLayer]

mutual
def storable : Json → Bool
  | .null => true
  | .bool _ => true
  | .number n => (TextLayer.double? n).isSome
  | .string s => s.text?.isSome
  | .array items => itemsStorable items
  | .object members => membersStorable members

def itemsStorable : List Json → Bool
  | [] => true
  | x :: rest => storable x && itemsStorable rest

def membersStorable : List (Literal × Json) → Bool
  | [] => true
  | (name, x) :: rest => name.text?.isSome && storable x && membersStorable rest
end

end Json

/-! ## Tags and fields -/

namespace Action

/-- What an action is called; every word starts with a capital. -/
def label : Action → String
  | noAction => "NoAction"
  | triggerShuffle => "TriggerShuffle"
  | migrateUser => "MigrateUser"
  | splitDomain => "SplitDomain"
  | mergeDomains => "MergeDomains"
  | updateScore => "UpdateScore"
  | changeFrequency => "ChangeFrequency"
  | custom => "Custom"

/-- The tag of an action: its label in capitals, with an underscore between two words. -/
def tag (a : Action) : String :=
  match a.label.toList with
  | [] => ""
  | c :: rest => .ofList (c :: rest.flatMap fun c => if c.isUpper then ['_', c] else [c.toUpper])

def ofTag? (s : String) : Option Action := (Vocabulary.all : List Action).find? (·.tag == s)

theorem tag_eq_name (a : Action) : a.tag = Vocabulary.name a := by
  cases a <;> rfl

theorem ofTag?_tag (a : Action) : ofTag? a.tag = some a := by
  cases a <;> rfl

/-- The fields that a decision with this action has, in the order in which they are written. -/
def fieldNames : Action → List String
  | noAction => []
  | triggerShuffle => ["domain_id", "mode", "reason"]
  | migrateUser => ["user_id", "domain_id", "reason"]
  | splitDomain => ["domain_id", "reason"]
  | mergeDomains => ["domain_id", "secondary_domain_id", "reason"]
  | updateScore => ["user_id", "new_score", "reason"]
  | changeFrequency => ["domain_id", "new_frequency", "reason"]
  | custom => ["params", "reason"]

end Action

namespace Decision
variable [Json.TextLayer]

def fieldValues : Decision Float → List Json
  | noAction => []
  | triggerShuffle domain mode reason => [encode domain, encode mode, encode reason]
  | migrateUser user domain reason => [encode user, encode domain, encode reason]
  | splitDomain domain reason => [encode domain, encode reason]
  | mergeDomains domain secondary reason => [encode domain, encode secondary, encode reason]
  | updateScore user score reason => [encode user, encode score, encode reason]
  | changeFrequency domain interval reason => [encode domain, encode interval, encode reason]
  | custom params reason => [encode params, encode reason]

def toJson (d : Decision Float) : Json :=
  .record (("action", .text d.action.tag) :: d.action.fieldNames.zip d.fieldValues)

/-- A mode in a held value is its name, alone or over nothing: null or an object without members. -/
def heldMode? (given : List (String × Json)) (name : String) : Option ShuffleMode :=
  (given.lookup name).bind <| Vocabulary.decode? fun
    | .null => true
    | .object [] => true
    | _ => false

/-- The decision with this action and these fields. -/
def ofFields? (action : Action) (given : List (String × Json)) : Option (Decision Float) := do
  match action with
  | .noAction => return noAction
  | .triggerShuffle =>
    return triggerShuffle (← field? given "domain_id") (← heldMode? given "mode")
      (← field? given "reason")
  | .migrateUser =>
    return migrateUser (← field? given "user_id") (← field? given "domain_id")
      (← field? given "reason")
  | .splitDomain => return splitDomain (← field? given "domain_id") (← field? given "reason")
  | .mergeDomains =>
    return mergeDomains (← field? given "domain_id") (← field? given "secondary_domain_id")
      (← field? given "reason")
  | .updateScore =>
    return updateScore (← field? given "user_id") (← field? given "new_score")
      (← field? given "reason")
  | .changeFrequency =>
    return changeFrequency (← field? given "domain_id") (← field? given "new_frequency")
      (← field? given "reason")
  | .custom => return custom (← field? given "params") (← field? given "reason")

/-- The action that a tag names; only a string is a tag. -/
def tag? : Json → Option Action
  | .string s => s.text?.bind Action.ofTag?
  | _ => none

/-- The decision in a value that is nested at most `room` deep. -/
def ofJson? (room : Nat) (j : Json) : Option (Decision Float) :=
  if j.depth ≤ room && j.storable then
    match j with
    | .object members => do
      let named ← Json.namedMembers? members
      match named.filter (·.1 == "action") with
      | [(_, tag)] => do
        let action ← tag? tag
        ofFields? action (← Json.fields? action.fieldNames j)
      | _ => none
    | .array (tag :: items) => do
      let action ← tag? tag
      ofFields? action (← Json.fields? action.fieldNames (.array items))
    | _ => none
  else none

/-- How deep a text may be nested where values are held. -/
def depthLimit : Nat := 127

instance : Wire (Decision Float) where
  encode := toJson
  decode? := ofJson? depthLimit

end Decision
end MovingTarget
