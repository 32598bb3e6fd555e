import ServiceBus.Store.Basic
import ServiceBus.Json.Decode
import ServiceBus.Json.Parser
import ServiceBus.Json.Print
import ServiceBus.Text.Percent
import ServiceBus.Turn

/-!
# Stores in a directory

A store in a directory keeps one record file for each entry. A record is written to a temporary file
that is made safe and then renamed, so a reader sees the old record or the new one. `DirectoryCall`
is a call in progress: `operation` says what it needs from the disk next, `resume` how it goes on
with the disk's answer.
-/

namespace ServiceBus

/-- What a record file holds. -/
structure Record where
  version : Nat
  id : String
  data : Json
  deriving DecidableEq

namespace Record

def currentVersion : Nat := 1

def toJson (r : Record) : Json :=
  .object [("version", .nat r.version), ("id", .text r.id), ("data", r.data)]

def decode : Decoder Record := fun d r => do
  let f ← r.record? ["version", "id", "data"] d
  let version ← f.required "version" .word32
  let id ← f.required "id" .text
  let data ← f.required "data" .any
  some ⟨version, id, data⟩

def write (r : Record) : Document := .ofString r.toJson.render

def read? (d : Document) : Option Record := (Raw.parse? d).bind (Decoder.document decode)

end Record

/-! ### File names -/

def recordName (id : String) : String := Percent.encode id ++ ".json"

def temporaryName (id : String) (mark : Nat) : String :=
  "." ++ Percent.encode id ++ "." ++ String.ofList (Hex.digits 16 mark) ++ ".tmp"

def filePath (directory name : String) : String := Path.join directory name

/-! ### Calls -/

/-- An entry on its way into a directory. -/
structure Writing where
  directory : String
  id : String
  data : Json
  /-- Tells this write's temporary file from others. -/
  mark : Nat
  deriving DecidableEq

namespace Writing

def record (w : Writing) : String := filePath w.directory (recordName w.id)

def temporary (w : Writing) : String := filePath w.directory (temporaryName w.id w.mark)

def content (w : Writing) : Document := Record.write ⟨Record.currentVersion, w.id, w.data⟩

end Writing

/-- A call on a store in a directory, at the point where it waits for the disk. -/
inductive DirectoryCall where
  | creating (w : Writing)
  | filling (w : Writing)
  | syncing (w : Writing)
  | renaming (w : Writing)
  | openingParent (w : Writing)
  | syncingParent (w : Writing)
  /-- Takes the temporary file away after a failure. -/
  | discarding (w : Writing) (cause : DiskError)
  | reading (directory id : String)
  | removing (directory id : String)
  deriving DecidableEq

namespace DirectoryCall

/-- What the call needs from the disk. -/
def operation : DirectoryCall → DiskOperation
  | .creating w => .create w.temporary
  | .filling w => .write w.temporary w.content
  | .syncing w => .sync w.temporary
  | .renaming w => .rename w.temporary w.record
  | .openingParent w => .openExisting w.directory
  | .syncingParent w => .sync w.directory
  | .discarding w _ => .remove w.temporary
  | .reading directory id => .read (filePath directory (recordName id))
  | .removing directory id => .remove (filePath directory (recordName id))

def answer (id : String) (d : Document) : Except StoreError (Option Json) :=
  match Record.read? d with
  | none => .error (.serialization "not a record")
  | some r =>
    if r.version = Record.currentVersion then .ok (some r.data)
    else .error (.unsupportedVersion id r.version)

def resume : DirectoryCall → Except DiskError Document →
    Turn DirectoryCall (Except StoreError (Option Json))
  | .creating w, .ok _ => .waiting (.filling w)
  | .filling w, .ok _ => .waiting (.syncing w)
  | .syncing w, .ok _ => .waiting (.renaming w)
  | .renaming w, .ok _ => .waiting (.openingParent w)
  | .openingParent w, .ok _ => .waiting (.syncingParent w)
  | .syncingParent _, .ok _ => .ended (.ok none)
  | .creating w, .error e | .filling w, .error e | .syncing w, .error e | .renaming w, .error e
  | .openingParent w, .error e | .syncingParent w, .error e => .waiting (.discarding w e)
  | .discarding w cause, _ => .ended (.error (.write w.id (.disk cause)))
  | .reading _ id, .ok d => .ended (answer id d)
  | .reading _ id, .error .notFound => .ended (.error (.notFound id))
  | .reading _ _, .error e => .ended (.error (.io (.disk e)))
  | .removing _ _, .ok _ | .removing _ _, .error .notFound => .ended (.ok none)
  | .removing _ _, .error e => .ended (.error (.io (.disk e)))

end DirectoryCall

end ServiceBus
