import MovingTarget.Decimal.Numeral
/-!
# JSON values

A JSON value as it is written: numbers are numerals and strings are literals, and the members of an
object keep their order and their repetitions. What a value means is left to those who decode it.

A string literal is kept as it is written, one glyph after the other, since two of its uses look at
the writing: a number that serves as a key must be spelt plainly, and a skipped literal may contain
half of a surrogate pair, which no text does. `text?_ofString` says that what is written for a text
reads back as that text.
-/
namespace MovingTarget.Json

/-- One element of a string literal. -/
inductive Glyph where
  /-- A character that stands for itself. -/
  | plain (c : Char)
  /-- A backslash and one letter, for the character `c`. -/
  | short (c : Char)
  /-- A backslash, a `u` and four digits in base sixteen: one UTF-16 unit. -/
  | unit (u : Nat)
  deriving DecidableEq

abbrev Literal := List Glyph

namespace Glyph

/-- The letter of a short escape. -/
def shortLetter? (c : Char) : Option Char :=
  if c = '"' then some '"' else if c = '\\' then some '\\' else if c = '/' then some '/'
  else if c = '\x08' then some 'b' else if c = '\x0c' then some 'f'
  else if c = '\n' then some 'n' else if c = '\r' then some 'r'
  else if c = '\t' then some 't' else none

/-- The character that a short escape with this letter stands for. -/
def ofShortLetter? (letter : Char) : Option Char :=
  ['"', '\\', '/', '\x08', '\x0c', '\n', '\r', '\t'].find? fun c => shortLetter? c == some letter

/-- How a character of a text is written. -/
def ofChar (c : Char) : Glyph :=
  if c ≠ '/' ∧ (shortLetter? c).isSome then .short c
  else if c.toNat < 0x20 then .unit c.toNat
  else .plain c

def hexDigit (n : Nat) : Char := Nat.digitChar (n % 16)

def hexValue? (c : Char) : Option Nat :=
  if '0' ≤ c ∧ c ≤ '9' then some (c.toNat - '0'.toNat)
  else if 'a' ≤ c ∧ c ≤ 'f' then some (c.toNat - 'a'.toNat + 10)
  else if 'A' ≤ c ∧ c ≤ 'F' then some (c.toNat - 'A'.toNat + 10)
  else none

/-- The UTF-16 unit that four digits in base sixteen name. -/
def unit? (a b c d : Char) : Option Nat := do
  return (((← hexValue? a) * 16 + (← hexValue? b)) * 16 + (← hexValue? c)) * 16 + (← hexValue? d)

def chars : Glyph → List Char
  | .plain c => [c]
  | .short c => ['\\', (shortLetter? c).getD c]
  | .unit u => ['\\', 'u', hexDigit (u / 4096), hexDigit (u / 256), hexDigit (u / 16), hexDigit u]

end Glyph

namespace Literal

def ofString (s : String) : Literal := s.toList.map Glyph.ofChar

def isLead (u : Nat) : Bool := 0xd800 ≤ u && u < 0xdc00

def isTrail (u : Nat) : Bool := 0xdc00 ≤ u && u < 0xe000

/-- The characters of a literal; none for half of a surrogate pair. -/
def decode? : Literal → Option (List Char)
  | [] => some []
  | .plain c :: rest => (decode? rest).map (c :: ·)
  | .short c :: rest => (decode? rest).map (c :: ·)
  | .unit u :: .unit v :: rest =>
    if isLead u then
      if isTrail v then
        (decode? rest).map (Char.ofNat (0x10000 + (u - 0xd800) * 0x400 + (v - 0xdc00)) :: ·)
      else none
    else if isTrail u then none
    else (decode? (.unit v :: rest)).map (Char.ofNat u :: ·)
  | .unit u :: rest =>
    if isLead u || isTrail u then none else (decode? rest).map (Char.ofNat u :: ·)

def text? (l : Literal) : Option String := (decode? l).map String.ofList

/-- The characters of the literal as written, without the quotes around it. -/
def chars (l : Literal) : List Char := l.flatMap Glyph.chars

/-- Read the rest of a literal whose opening quote has been passed. -/
def read? : List Char → Option (Literal × List Char)
  | [] => none
  | '"' :: rest => some ([], rest)
  | '\\' :: 'u' :: a :: b :: c :: d :: rest => do
    let u ← Glyph.unit? a b c d
    let (l, rest) ← read? rest
    return (.unit u :: l, rest)
  | '\\' :: letter :: rest => do
    let c ← Glyph.ofShortLetter? letter
    let (l, rest) ← read? rest
    return (.short c :: l, rest)
  | c :: rest =>
    if c = '\\' ∨ c.toNat < 0x20 then none
    else do
      let (l, rest) ← read? rest
      return (.plain c :: l, rest)

/-! ## What is written reads back -/

theorem decode?_ofChar (c : Char) (l : Literal) :
    decode? (Glyph.ofChar c :: l) = (decode? l).map (c :: ·) := by
  unfold Glyph.ofChar
  split
  · rfl
  · split
    · next h =>
      have hl : isLead c.toNat = false := by simp [isLead]; omega
      have ht : isTrail c.toNat = false := by simp [isTrail]; omega
      have hc : Char.ofNat c.toNat = c := Char.ofNat_toNat c
      match l with
      | [] => simp [decode?, hl, ht, hc]
      | .plain _ :: _ => simp [decode?, hl, ht, hc]
      | .short _ :: _ => simp [decode?, hl, ht, hc]
      | .unit _ :: _ => simp [decode?, hl, ht, hc]
    · rfl

theorem decode?_map_ofChar (cs : List Char) : decode? (cs.map Glyph.ofChar) = some cs := by
  induction cs with
  | nil => rfl
  | cons c cs ih => rw [List.map_cons, decode?_ofChar, ih]; rfl

@[simp] theorem text?_ofString (s : String) : (ofString s).text? = some s := by
  simp [text?, ofString, decode?_map_ofChar]

end Literal
end MovingTarget.Json

/-! ## Values -/

namespace MovingTarget

inductive Json where
  | null
  | bool (b : Bool)
  | number (n : Numeral)
  | string (s : Json.Literal)
  | array (items : List Json)
  | object (members : List (Json.Literal × Json))

namespace Json

instance : Inhabited Json := ⟨.null⟩

def text (s : String) : Json := .string (.ofString s)

def count (n : Nat) : Json := .number (.ofNat n)

/-- An object with the given names, in this order. -/
def record (members : List (String × Json)) : Json :=
  .object (members.map fun m => (.ofString m.1, m.2))

mutual
/-- How deep arrays and objects are nested. -/
def depth : Json → Nat
  | .array items => itemsDepth items + 1
  | .object members => membersDepth members + 1
  | _ => 0

def itemsDepth : List Json → Nat
  | [] => 0
  | x :: rest => max x.depth (itemsDepth rest)

def membersDepth : List (Literal × Json) → Nat
  | [] => 0
  | (_, x) :: rest => max x.depth (membersDepth rest)
end

end Json
end MovingTarget
