/-!
# A store of files

A tree of directories and files, seen from the directory in which everything starts. A path is
walked name by name, and every name but the last has to lead to a directory that is there, also
when two dots lead out of it again. `read_write` says that what was written is what is read.
-/
namespace MovingTarget

/-- Why a path cannot be read or written. -/
inductive FileFault where
  | notFound
  | isDirectory
  /-- A file stands where the path needs a directory. -/
  | notDirectory
  /-- The file is there but holds no text. -/
  | invalidText
  deriving DecidableEq

inductive FileNode where
  | directory
  | file (bytes : ByteArray)

/-- Where a walk has led: the names on the way from the start. Names in front that are two dots lead
above it. -/
abbrev Place := List String

structure FileStore where
  nodes : List (Place × FileNode)

namespace FileStore

def empty : FileStore := ⟨[]⟩

def isAbove (here : Place) : Bool := here.all (· == "..")

/-- The start and what lies above it are directories. -/
def node? (f : FileStore) (here : Place) : Option FileNode :=
  if isAbove here then some .directory else f.nodes.lookup here

def put (f : FileStore) (here : Place) (n : FileNode) : FileStore := ⟨(here, n) :: f.nodes⟩

/-- Where a name leads from a directory: an empty name or a dot stays, two dots go up. -/
def follow (here : Place) (name : String) : Place :=
  if name = "" ∨ name = "." then here
  else if name = ".." ∧ !isAbove here then here.dropLast
  else here ++ [name]

/-- The place that is reached from `here` by one name after the other. Nothing need be there yet. -/
def walk (f : FileStore) (here : Place) : List String → Except FileFault Place
  | [] => .ok here
  | name :: rest =>
    match f.node? here with
    | some .directory => f.walk (follow here name) rest
    | some (.file _) => .error .notDirectory
    | none => .error .notFound

/-- The names in a path. A slash at its end leaves an empty name there. -/
def names (path : String) : List String := path.splitOn "/"

def read (f : FileStore) (path : String) : Except FileFault ByteArray :=
  if path = "" then .error .notFound
  else match f.walk [] (names path) with
    | .error fault => .error fault
    | .ok place =>
      match f.node? place with
      | none => .error .notFound
      | some .directory => .error .isDirectory
      | some (.file bytes) => .ok bytes

def readText (f : FileStore) (path : String) : Except FileFault String := do
  match String.fromUTF8? (← f.read path) with
  | some text => .ok text
  | none => .error .invalidText

/-- Write a file to a place, in place of one that was there. -/
def writeAt (f : FileStore) (place : Place) (bytes : ByteArray) : Except FileFault FileStore :=
  match f.node? place with
  | some .directory => .error .isDirectory
  | _ => .ok (f.put place (.file bytes))

/-- Write a file. A path that ends with a slash asks for a directory, whatever its last name leads
to. -/
def write (f : FileStore) (path : String) (bytes : ByteArray) : Except FileFault FileStore :=
  if path = "" then .error .notFound
  else if (names path).getLast? = some "" then
    match f.walk [] ((names path).reverse.dropWhile (· == "")).reverse with
    | .error fault => .error fault
    | .ok _ => .error .isDirectory
  else
    match f.walk [] (names path) with
    | .error fault => .error fault
    | .ok place => f.writeAt place bytes

/-- Make the directories along a walk, where there is nothing yet. -/
def makeAlong (f : FileStore) (here : Place) : List String → FileStore
  | [] => f
  | name :: rest =>
    match f.node? here with
    | some .directory =>
      let next := follow here name
      (if (f.node? next).isNone then f.put next .directory else f).makeAlong next rest
    | _ => f

/-- Make a directory and those above it. -/
def makeDirectory (f : FileStore) (path : String) : FileStore := f.makeAlong [] (names path)

/-! ## What was written is read -/

theorem node?_put_of_ne {f : FileStore} {here place : Place} {n : FileNode} (h : here ≠ place) :
    (f.put place n).node? here = f.node? here := by
  simp [node?, put, List.lookup_cons, beq_false_of_ne h]

theorem node?_put_self {f : FileStore} {place : Place} {n : FileNode}
    (h : f.node? place ≠ some .directory) : (f.put place n).node? place = some n := by
  have : isAbove place = false := by
    cases ha : isAbove place
    · rfl
    · simp [node?, ha] at h
  simp [node?, put, this]

/-- A walk passes directories only, so a file at a place that was none changes no walk. -/
theorem walk_put {f : FileStore} {place : Place} {n : FileNode}
    (h : f.node? place ≠ some .directory) {here end_ : Place} {path : List String}
    (hw : f.walk here path = .ok end_) : (f.put place n).walk here path = .ok end_ := by
  induction path generalizing here with
  | nil => exact hw
  | cons name rest ih =>
    rw [walk] at hw ⊢
    split at hw
    · next hd =>
      have hne : here ≠ place := fun he => h (he ▸ hd)
      rw [node?_put_of_ne hne, hd]
      exact ih hw
    · cases hw
    · cases hw

theorem writeAt_eq_ok {f g : FileStore} {place : Place} {bytes : ByteArray}
    (h : f.writeAt place bytes = .ok g) :
    f.node? place ≠ some .directory ∧ g = f.put place (.file bytes) := by
  unfold writeAt at h
  split at h
  · cases h
  · next hd => cases h; exact ⟨hd, rfl⟩

theorem read_write {f g : FileStore} {path : String} {bytes : ByteArray}
    (h : f.write path bytes = .ok g) : g.read path = .ok bytes := by
  unfold write at h
  split at h
  · cases h
  · next hp =>
    split at h
    · split at h <;> cases h
    · split at h
      · cases h
      · next place hw =>
        obtain ⟨hd, rfl⟩ := writeAt_eq_ok h
        simp [read, hp, walk_put hd hw, node?_put_self hd]

end FileStore
end MovingTarget
