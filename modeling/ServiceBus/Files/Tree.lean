import ServiceBus.Files.Path
import ServiceBus.Table
import ServiceBus.Text.Document

/-!
# A tree of files

A `Tree` maps locations, lists of names from the root, to files and directories. A path is followed
part by part: `.` stays, `..` goes up, a name goes down, and each step needs a directory to start
from. A path that is too long as a whole is not followed at all. `Tree.perform` carries out one
operation as a whole. An operation that fails changes nothing, but for `makeDirectories`, which may
have made some of the directories it needs.
-/

namespace ServiceBus

inductive DiskError where
  | notFound
  | notADirectory
  | isADirectory
  | alreadyExists
  | nameTooLong
  | notEmpty
  | invalidName
  deriving DecidableEq, Repr, Inhabited

namespace DiskError

def kind : DiskError → String
  | .notFound => "NotFound"
  | .notADirectory => "NotADirectory"
  | .isADirectory => "IsADirectory"
  | .alreadyExists => "AlreadyExists"
  | .nameTooLong => "InvalidFilename"
  | .notEmpty => "DirectoryNotEmpty"
  | .invalidName => "InvalidInput"

def message : DiskError → String
  | .notFound => "No such file or directory (os error 2)"
  | .notADirectory => "Not a directory (os error 20)"
  | .isADirectory => "Is a directory (os error 21)"
  | .alreadyExists => "File exists (os error 17)"
  | .nameTooLong => "File name too long (os error 36)"
  | .notEmpty => "Directory not empty (os error 39)"
  | .invalidName => "file name contained an unexpected NUL byte"

end DiskError

/-- The names on the way from the root. -/
abbrev Location := List String

inductive Entry where
  | file (content : Document)
  | directory
  deriving DecidableEq, Inhabited

/-- Files and directories by depth and location; the root is always a directory. -/
structure Tree where
  entries : Table (Nat × Location) Entry

inductive DiskOperation where
  /-- Makes a directory and those above it, as far as they are missing. -/
  | makeDirectories (path : String)
  /-- Makes an empty file or empties the one that is there. -/
  | create (path : String)
  /-- Puts content into a file. -/
  | write (path : String) (content : Document)
  /-- Waits until a file or directory is safe. -/
  | sync (path : String)
  /-- Gives a file another name, in place of a file of that name. -/
  | rename (source target : String)
  /-- Opens what is there. -/
  | openExisting (path : String)
  /-- Reads a file as a whole. -/
  | read (path : String)
  /-- Takes a file away. -/
  | remove (path : String)
  deriving DecidableEq

namespace Tree

def empty : Tree := ⟨.empty⟩

instance : Inhabited Tree := ⟨empty⟩

/-- What a location is kept under. The depth tells most locations apart at a glance. -/
def key (here : Location) : Nat × Location := (here.length, here)

@[simp] theorem key_inj {here there : Location} : key here = key there ↔ here = there :=
  ⟨fun h => congrArg Prod.snd h, fun h => h ▸ rfl⟩

def find? (t : Tree) : Location → Option Entry
  | [] => some .directory
  | n :: rest => t.entries.get? (key (n :: rest))

def insert (t : Tree) (here : Location) (e : Entry) : Tree := ⟨t.entries.insert (key here) e⟩

def erase (t : Tree) (here : Location) : Tree := ⟨t.entries.erase (key here)⟩

@[simp] theorem find?_nil (t : Tree) : t.find? [] = some .directory := rfl

theorem find?_insert (t : Tree) {here : Location} (h : here ≠ []) (there : Location) (e : Entry) :
    (t.insert here e).find? there = if there = here then some e else t.find? there := by
  cases there with
  | nil => simp [Ne.symm h]
  | cons n rest => simp [find?, insert, Table.get?_insert]

theorem find?_erase (t : Tree) {here : Location} (h : here ≠ []) (there : Location) :
    (t.erase here).find? there = if there = here then none else t.find? there := by
  cases there with
  | nil => simp [Ne.symm h]
  | cons n rest => simp [find?, erase, Table.get?_erase]

/-! ### Following a path -/

/-- The longest name a directory can hold, in bytes. -/
def nameLimit : Nat := 255

/-- The longest path that can be followed, in bytes. -/
def pathLimit : Nat := 4095

/-- Needs a directory at a location. -/
def enter (t : Tree) (here : Location) : Except DiskError Unit :=
  match t.find? here with
  | none => .error .notFound
  | some (.file _) => .error .notADirectory
  | some .directory => .ok ()

/-- One part further. -/
def follow (t : Tree) (here : Location) (part : String) : Except DiskError Location := do
  t.enter here
  if part = "." then .ok here
  else if part = ".." then .ok here.dropLast
  else if nameLimit < part.utf8ByteSize then .error .nameTooLong
  else .ok (here ++ [part])

/-- Where parts lead from a location; there need not be an entry. -/
def walk (t : Tree) (here : Location) (parts : List String) : Except DiskError Location :=
  parts.foldlM t.follow here

/-- The parts of a path that can be followed at all. -/
def partsOf (path : String) : Except DiskError (List String) :=
  if path.toList.any fun c => c.toNat = 0 then .error .invalidName
  else if pathLimit < path.utf8ByteSize then .error .nameTooLong
  else .ok (Path.parts path)

/-- Where a path leads; there need not be an entry. The empty path leads nowhere. -/
def locate (t : Tree) (path : String) : Except DiskError Location :=
  if path = "" then .error .notFound
  else do t.walk [] (← partsOf path)

/-! ### Operations -/

/-- A directory at a location, made there if there is nothing. -/
def ensure (t : Tree) (here : Location) : Tree × Except DiskError Location :=
  match t.find? here with
  | none => (t.insert here .directory, .ok here)
  | some .directory => (t, .ok here)
  | some (.file _) => (t, .error .alreadyExists)

/-- A directory where parts lead, made there with those above it, as far as they are missing. -/
def ensureAll (t : Tree) (parts : List String) : Tree × Except DiskError Location :=
  match t.walk [] parts with
  | .ok here => t.ensure here
  | .error .notFound =>
    match h : Path.parent? parts with
    | none => (t, .error .notFound)
    | some above =>
      have : above.length < parts.length := Path.length_of_parent? h
      match ensureAll t above with
      | (t, .error e) => (t, .error e)
      | (t, .ok there) =>
        match t.walk there (parts.drop above.length) with
        | .ok here => t.ensure here
        | .error e => (t, .error e)
  | .error e => (t, .error e)
termination_by parts.length

/-- Makes a directory and those above it, as far as they are missing. -/
def makeDirectories (t : Tree) (path : String) : Tree × Except DiskError Unit :=
  match partsOf path with
  | .error e => (t, .error e)
  | .ok parts =>
    let (t, r) := t.ensureAll parts
    (t, r.map fun _ => ())

/-- Makes an empty file or empties the one that is there. -/
def create (t : Tree) (path : String) : Except DiskError Tree := do
  let here ← t.locate path
  match t.find? here with
  | some .directory => .error .isADirectory
  | _ => .ok (t.insert here (.file []))

def write (t : Tree) (path : String) (content : Document) : Except DiskError Tree := do
  let here ← t.locate path
  match t.find? here with
  | some (.file _) => .ok (t.insert here (.file content))
  | some .directory => .error .isADirectory
  | none => .error .notFound

def rename (t : Tree) (source target : String) : Except DiskError Tree := do
  let origin ← t.locate source
  let there ← t.locate target
  match t.find? origin, t.find? there with
  | none, _ => .error .notFound
  | some (.file _), some .directory => .error .isADirectory
  | some (.file content), _ => .ok ((t.erase origin).insert there (.file content))
  | some .directory, _ => .error .isADirectory

def read (t : Tree) (path : String) : Except DiskError Document := do
  match t.find? (← t.locate path) with
  | some (.file content) => .ok content
  | some .directory => .error .isADirectory
  | none => .error .notFound

/-- Needs an entry at a path. -/
def openExisting (t : Tree) (path : String) : Except DiskError Unit := do
  match t.find? (← t.locate path) with
  | some _ => .ok ()
  | none => .error .notFound

def remove (t : Tree) (path : String) : Except DiskError Tree := do
  let here ← t.locate path
  match t.find? here with
  | some (.file _) => .ok (t.erase here)
  | some .directory => .error .isADirectory
  | none => .error .notFound

/-- The tree after a change that may fail, and whether it did. -/
def settle (t : Tree) : Except DiskError Tree → Tree × Except DiskError Document
  | .ok t => (t, .ok [])
  | .error e => (t, .error e)

/-- Carries out an operation; only `read` has content to answer with. -/
def perform (t : Tree) : DiskOperation → Tree × Except DiskError Document
  | .makeDirectories path =>
    let (t, r) := t.makeDirectories path
    (t, r.map fun _ => [])
  | .create path => t.settle (t.create path)
  | .write path content => t.settle (t.write path content)
  | .sync _ => (t, .ok [])
  | .rename source target => t.settle (t.rename source target)
  | .openExisting path => (t, (t.openExisting path).map fun _ => [])
  | .read path => (t, t.read path)
  | .remove path => t.settle (t.remove path)

/-! ### Looking at directories and moving them -/

/-- The names in a directory, each with what stands there. -/
def children (t : Tree) (here : Location) : List (String × Entry) :=
  t.entries.entries.filterMap fun ((_, l), e) =>
    match l.getLast? with
    | some n => if l.dropLast = here then some (n, e) else none
    | none => none

/-- The entries at and below a location, by the names below it. -/
def below (t : Tree) (here : Location) : List (Location × Entry) :=
  t.entries.entries.filterMap fun ((_, l), e) =>
    if here.isPrefixOf l then some (l.drop here.length, e) else none

/-- The tree without what stands at and below a location. -/
def prune (t : Tree) (here : Location) : Tree :=
  ⟨t.entries.filter fun (_, l) _ => !here.isPrefixOf l⟩

/-- Moves what stands at and below a location to another one, in place of what is there. -/
def move (t : Tree) (source target : Location) : Tree :=
  (t.below source).foldl (fun t e => t.insert (target ++ e.1) e.2) ((t.prune source).prune target)

end Tree

end ServiceBus
