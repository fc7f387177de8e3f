import MovingTarget.Json.Text
import MovingTarget.Table
/-!
# Values on the wire

`Wire` pairs the writing of a type with its reading. Numbers are read strictly by type: a count
only from a plain natural number in range, a double from any numeral that the text layer reads as
one. A table is an object whose names are its keys in ascending order; where a name is repeated,
the last value stays.

A record is an object with known names, or an array of its fields in the order in which they are
declared. Members under other names are passed over whatever they hold, a known name must not come
twice, and an array must not be longer than the record.
-/
namespace MovingTarget

namespace Json

/-- The members of an object by name; none if some name is no text. -/
def namedMembers? : List (Literal × Json) → Option (List (String × Json))
  | [] => some []
  | (name, x) :: rest => do
    let name ← name.text?
    return (name, x) :: (← namedMembers? rest)

/-- The fields that a value gives to a record, by name. -/
def fields? (names : List String) : Json → Option (List (String × Json))
  | .object members => do
    let known := (← namedMembers? members).filter fun m => names.contains m.1
    if (known.map (·.1)).Nodup then some known else none
  | .array items => if items.length ≤ names.length then some (names.zip items) else none
  | _ => none

end Json

class Wire (β : Type) where
  encode : β → Json
  decode? : Json → Option β

namespace Wire
open Json

def natBelow? (bound : Nat) : Json → Option Nat
  | .number n => do
    let k ← n.toNat?
    if k < bound then some k else none
  | _ => none

instance : Wire UInt32 where
  encode n := .count n.toNat
  decode? j := (natBelow? UInt32.size j).map UInt32.ofNat

instance : Wire UInt64 where
  encode n := .count n.toNat
  decode? j := (natBelow? UInt64.size j).map UInt64.ofNat

/-- Counts are written as they are and read up to 64 bits. -/
instance : Wire Nat where
  encode := .count
  decode? := natBelow? UInt64.size

instance [TextLayer] : Wire Float where
  encode x := match TextLayer.numeral? x with
    | some n => .number n
    | none => .null
  decode?
    | .number n => TextLayer.double? n
    | _ => none

instance : Wire String where
  encode := .text
  decode?
    | .string s => s.text?
    | _ => none

section Lists
variable {β : Type} [Wire β]

def decodeItems? : List Json → Option (List β)
  | [] => some []
  | x :: rest => do return (← decode? x) :: (← decodeItems? rest)

instance : Wire (List β) where
  encode xs := .array (xs.map encode)
  decode?
    | .array items => decodeItems? items
    | _ => none

end Lists

/-! ## Tables -/

/-- Keys that can be written as the name of a member. -/
class Key (κ : Type) where
  name : κ → Literal
  ofName? : Literal → Option κ

instance : Key String where
  name := .ofString
  ofName? := Literal.text?

/-- The number that plain digits spell. -/
def plainNat? (l : Literal) : Option Nat := do
  let ds ← l.mapM fun
    | .plain c => Decimal.Digit.ofChar? c
    | _ => none
  let n := Decimal.ofDigits ds
  if Decimal.digits n = ds then some n else none

/-- A number is a key in its one decimal spelling, without escapes. -/
instance : Key UInt32 where
  name n := (Decimal.digits n.toNat).map fun d => .plain d.char
  ofName? l := do
    let n ← plainNat? l
    if n < UInt32.size then some (.ofNat n) else none

section Tables
variable {κ ν : Type} [LT κ] [Key κ] [Wire ν]

def decodeEntries? : List (Literal × Json) → Option (List (κ × ν))
  | [] => some []
  | (name, x) :: rest => do
    return (← Key.ofName? name, ← decode? x) :: (← decodeEntries? rest)

instance [DecidableLT κ] [LE κ] [Std.IsLinearOrder κ] [Std.LawfulOrderLT κ] :
    Wire (Table κ ν) where
  encode t := .object (t.entries.map fun e => (Key.name e.1, encode e.2))
  decode?
    | .object members => (decodeEntries? members).map Table.ofList
    | _ => none

end Tables

/-! ## Fields of a record -/

/-- The field `name`, which must be given. -/
def field? {β : Type} [Wire β] (given : List (String × Json)) (name : String) : Option β :=
  (given.lookup name).bind decode?

/-- The field `name`, or `preset` if it is not given. -/
def fieldOr? {β : Type} [Wire β] (given : List (String × Json)) (name : String) (preset : β) :
    Option β :=
  match given.lookup name with
  | none => some preset
  | some x => decode? x

end Wire
end MovingTarget
