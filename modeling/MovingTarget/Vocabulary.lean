import MovingTarget.Json.Wire
import MovingTarget.Text.Quoted
/-!
# Closed vocabularies

A vocabulary is a type with finitely many values, each known outside by one upper-case name. The
name is what is shown, what is written on the wire and the only text that parses.
-/
namespace MovingTarget

class Vocabulary (ε : Type) where
  /-- What a value is called in a complaint. -/
  noun : String
  all : List ε
  name : ε → String

/-- A text that names no value of a vocabulary. -/
structure UnknownName where
  noun : String
  given : String
  deriving DecidableEq

def UnknownName.message (e : UnknownName) : String := s!"unknown {e.noun}: {Text.quoted e.given}"

namespace Vocabulary
variable {ε : Type} [Vocabulary ε]

def ofName? (s : String) : Option ε := (all : List ε).find? fun e => name e == s

def parse (s : String) : Except UnknownName ε :=
  match ofName? s with
  | some e => .ok e
  | none => .error ⟨noun ε, s⟩

/-- A value is its name, or an object whose only member bears the name and holds nothing. -/
def decode? (nothing : Json → Bool) : Json → Option ε
  | .string s => s.text?.bind ofName?
  | .object [(s, x)] => if nothing x then s.text?.bind ofName? else none
  | _ => none

def isNull : Json → Bool
  | .null => true
  | _ => false

instance : Wire ε where
  encode e := .text (name e)
  decode? := decode? isNull

end Vocabulary

end MovingTarget
