import MovingTarget.Decimal.Double
import MovingTarget.Json.Basic
/-!
# JSON text

A double is written with the fewest digits that read back, positionally from `1e-5` up to `1e16`
and with an exponent beyond, always with a point or an exponent. A double that is no finite number
has no numeral.

One printer serves both forms of text: the compact one writes no space at all, the indented one puts
every item on a line of its own, two spaces further in than the brackets around it. Empty brackets
stay closed in both. The reader accepts exactly one value with blanks around it.

Codecs know text only as a `TextLayer`; this printer and this reader are one.
-/
namespace MovingTarget.Json
open Decimal

def numberLayout : Layout where
  tie := .toEven
  positional e := -5 ≤ e && e < 16
  pointed := true

/-- The numeral of a finite double. -/
def numeral? (x : Float) : Option Numeral :=
  match Double.ofFloat x with
  | .finite negative significand exponent narrow =>
    let v := Magnitude.ofBinary significand exponent narrow
    some (numberLayout.numeral negative (v.shortest numberLayout.tie))
  | _ => none

end MovingTarget.Json

/-! ## Reading a numeral -/

namespace MovingTarget.Numeral
open Decimal

/-- The digits at the front, and what follows them. -/
def takeDigits : List Char → List Digit × List Char
  | [] => ([], [])
  | c :: rest =>
    match Digit.ofChar? c with
    | some d => (d :: (takeDigits rest).1, (takeDigits rest).2)
    | none => ([], c :: rest)

/-- A point must be followed by a digit. -/
def readFraction? : List Char → Option (List Digit × List Char)
  | '.' :: rest => if (takeDigits rest).1.isEmpty then none else some (takeDigits rest)
  | rest => some ([], rest)

/-- An exponent mark may have a sign and must have a digit. -/
def readExponent? (cs : List Char) : Option (Option Int × List Char) :=
  match cs with
  | [] => some (none, [])
  | c :: rest =>
    if c = 'e' ∨ c = 'E' then
      let (negative, rest) := match rest with
        | '-' :: rest => (true, rest)
        | '+' :: rest => (false, rest)
        | rest => (false, rest)
      match takeDigits rest with
      | ([], _) => none
      | (ds, rest) => some (some (if negative then -(ofDigits ds) else ofDigits ds), rest)
    else some (none, cs)

/-- A numeral at the front, and what follows it. A whole part of several digits does not start with
a zero. -/
def read? (cs : List Char) : Option (Numeral × List Char) :=
  let (negative, cs) := match cs with
    | '-' :: rest => (true, rest)
    | rest => (false, rest)
  match takeDigits cs with
  | ([], _) => none
  | (0 :: _ :: _, _) => none
  | (ds, rest) => do
    let (fraction, rest) ← readFraction? rest
    let (exponent, rest) ← readExponent? rest
    return ({ negative, whole := ofDigits ds, fraction, exponent }, rest)

end MovingTarget.Numeral

/-! ## Writing -/

namespace MovingTarget.Json

/-- What is written between the tokens. -/
structure Style where
  /-- In front of an item or a closing bracket at this nesting depth. -/
  lineBreak : (level : Nat) → List Char
  /-- Between a name and its value. -/
  colon : List Char

def Style.compact : Style := ⟨fun _ => [], [':']⟩

def Style.indented : Style := ⟨fun level => '\n' :: List.replicate (2 * level) ' ', [':', ' ']⟩

def literalChars (l : Literal) : List Char := '"' :: l.chars ++ ['"']

mutual
/-- The text of a value whose brackets stand at nesting depth `level`. -/
def chars (style : Style) (level : Nat) : Json → List Char
  | .null => "null".toList
  | .bool b => if b then "true".toList else "false".toList
  | .number n => n.chars
  | .string s => literalChars s
  | .array items =>
    '[' :: itemChars style (level + 1) items
      ++ (if items.isEmpty then [] else style.lineBreak level) ++ [']']
  | .object members =>
    '{' :: memberChars style (level + 1) members
      ++ (if members.isEmpty then [] else style.lineBreak level) ++ ['}']

def itemChars (style : Style) (level : Nat) : List Json → List Char
  | [] => []
  | x :: rest =>
    style.lineBreak level ++ chars style level x
      ++ (if rest.isEmpty then [] else ',' :: itemChars style level rest)

def memberChars (style : Style) (level : Nat) : List (Literal × Json) → List Char
  | [] => []
  | (name, x) :: rest =>
    style.lineBreak level ++ literalChars name ++ style.colon ++ chars style level x
      ++ (if rest.isEmpty then [] else ',' :: memberChars style level rest)
end

def compact (j : Json) : String := String.ofList (chars .compact 0 j)

def indented (j : Json) : String := String.ofList (chars .indented 0 j)

/-! ## Reading

A value is read from the front of the text and hands back what follows it; items and members are
read as sequences that are not empty, so a comma is always followed by another one. Every step but
the one from a sequence to its first value passes a character, so twice the length of the text
bounds the steps. -/

def isBlank (c : Char) : Bool := c == ' ' || c == '\t' || c == '\n' || c == '\r'

def skipBlanks (cs : List Char) : List Char := cs.dropWhile isBlank

mutual
/-- The value at the front of a text. -/
def readValue? : (fuel : Nat) → List Char → Option (Json × List Char)
  | 0, _ => none
  | fuel + 1, cs =>
    match cs with
    | 'n' :: 'u' :: 'l' :: 'l' :: rest => some (.null, rest)
    | 't' :: 'r' :: 'u' :: 'e' :: rest => some (.bool true, rest)
    | 'f' :: 'a' :: 'l' :: 's' :: 'e' :: rest => some (.bool false, rest)
    | '"' :: rest => (Literal.read? rest).map fun r => (.string r.1, r.2)
    | '[' :: rest =>
      match skipBlanks rest with
      | ']' :: rest => some (.array [], rest)
      | rest => (readItems? fuel rest).map fun r => (.array r.1, r.2)
    | '{' :: rest =>
      match skipBlanks rest with
      | '}' :: rest => some (.object [], rest)
      | rest => (readMembers? fuel rest).map fun r => (.object r.1, r.2)
    | cs => (Numeral.read? cs).map fun r => (.number r.1, r.2)

/-- The items up to the closing bracket, at least one. -/
def readItems? : (fuel : Nat) → List Char → Option (List Json × List Char)
  | 0, _ => none
  | fuel + 1, cs => do
    let (x, rest) ← readValue? fuel (skipBlanks cs)
    match skipBlanks rest with
    | ',' :: rest => do
      let (xs, rest) ← readItems? fuel rest
      return (x :: xs, rest)
    | ']' :: rest => return ([x], rest)
    | _ => none

/-- The members up to the closing brace, at least one. -/
def readMembers? : (fuel : Nat) → List Char → Option (List (Literal × Json) × List Char)
  | 0, _ => none
  | fuel + 1, cs =>
    match skipBlanks cs with
    | '"' :: rest => do
      let (name, rest) ← Literal.read? rest
      match skipBlanks rest with
      | ':' :: rest => do
        let (x, rest) ← readValue? fuel (skipBlanks rest)
        match skipBlanks rest with
        | ',' :: rest => do
          let (members, rest) ← readMembers? fuel rest
          return ((name, x) :: members, rest)
        | '}' :: rest => return ([(name, x)], rest)
        | _ => none
      | _ => none
    | _ => none
end

/-- The value that a whole text writes. -/
def parse? (s : String) : Option Json :=
  let cs := s.toList
  match readValue? (2 * cs.length + 1) (skipBlanks cs) with
  | some (j, rest) => if (skipBlanks rest).isEmpty then some j else none
  | none => none

/-! ## The layer between values and text -/

/-- How values are put into text and read again, and doubles into numerals. -/
class TextLayer where
  /-- The text of a value on one line. -/
  line : Json → String
  /-- The text of a value over several lines. -/
  lines : Json → String
  /-- The value that a text writes. -/
  read? : String → Option Json
  /-- What is written for a double; none where null is. -/
  numeral? : Float → Option Numeral
  /-- The double that is read of a numeral. -/
  double? : Numeral → Option Float

instance : TextLayer where
  line := compact
  lines := indented
  read? := parse?
  numeral? := numeral?
  double? := Numeral.toDouble?

end MovingTarget.Json
