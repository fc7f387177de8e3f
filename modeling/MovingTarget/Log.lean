import MovingTarget.Vocabulary
/-!
# Log entries

Components hand back what they have to report as entries; what becomes of an entry is up to whoever
collects them. `Log` keeps all of them for inspection, `lines` writes those up to a verbosity.
-/
namespace MovingTarget

/-- How much detail an entry belongs to, from alarms to intermediate values. -/
inductive Verbosity where
  | normal
  | verbose
  | debug
  deriving DecidableEq

namespace Verbosity

def rank : Verbosity → Nat
  | normal => 0
  | verbose => 1
  | debug => 2

instance : LE Verbosity := ⟨fun a b => a.rank ≤ b.rank⟩

instance (a b : Verbosity) : Decidable (a ≤ b) := inferInstanceAs (Decidable (a.rank ≤ b.rank))

/-- The verbosity that a flag given so many times asks for. -/
def ofCount : Nat → Verbosity
  | 0 => normal
  | 1 => verbose
  | _ => debug

instance : Vocabulary Verbosity where
  noun := "verbosity"
  all := [normal, verbose, debug]
  name
    | normal => "NORMAL"
    | verbose => "VERBOSE"
    | debug => "DEBUG"

end Verbosity

structure LogEntry where
  level : Verbosity
  /-- The component that reports. -/
  source : String
  message : String
  deriving DecidableEq

/-- The entries up to a verbosity, one line each. -/
def LogEntry.lines (limit : Verbosity) (entries : List LogEntry) : String :=
  String.join ((entries.filter fun e => e.level ≤ limit).map fun e =>
    s!"[{e.source}] {e.message}\n")

/-- Whether `needle` stands somewhere in `text`. -/
def occursIn (needle : List Char) : (text : List Char) → Bool
  | [] => needle.isEmpty
  | c :: rest => needle.isPrefixOf (c :: rest) || occursIn needle rest

/-- All entries so far, oldest first. -/
structure Log where
  entries : List LogEntry
  deriving DecidableEq

namespace Log

def empty : Log := ⟨[]⟩

def add (l : Log) (e : LogEntry) : Log := ⟨l.entries ++ [e]⟩

def size (l : Log) : Nat := l.entries.length

def messages (l : Log) : List String := l.entries.map (·.message)

def messagesAt (l : Log) (level : Verbosity) : List String :=
  (l.entries.filter (·.level == level)).map (·.message)

def mentions (l : Log) (text : String) : Bool :=
  l.entries.any fun e => occursIn text.toList e.message.toList

end Log
end MovingTarget
