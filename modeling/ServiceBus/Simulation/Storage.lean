import ServiceBus.Simulation.Basic

/-!
# Actions on stores and files

Stores are opened on their own, by a factory or by the container's factory, and called by name. The
files of a store can be looked at and changed behind its back.
-/

namespace ServiceBus.Simulation

abbrev Begun := Simulation × Turn Pending Result

def reply (s : Simulation) (r : Result) : Begun := (s, .ended r)

/-! ### Opening -/

/-- Names a store that is open, and has a factory keep it that has none of that name yet. -/
def opened (s : Simulation) (o : Opened) : Except StoreError Nat → Simulation × Result
  | .error e => (s, .error (.store e))
  | .ok n =>
    match o with
    | .named name =>
      ({ s with stores := s.stores.insert name n }, .ok (.text (s.bus.store n).name))
    | .made f store name =>
      match s.factories.get? f with
      | none => (s, .error .unknown)
      | some factory =>
        let (factory, n) := factory.keep store n
        ({ s with
            stores := s.stores.insert name n
            factories := s.factories.insert f factory },
          .ok (.text (s.bus.store n).name))
    | .contained store name =>
      match s.container with
      | none => (s, .error .unknown)
      | some (c, factory) =>
        let (factory, n) := factory.keep store n
        ({ s with
            stores := s.stores.insert name n
            container := some (c, factory) },
          .ok (.text (s.bus.store n).name))

def continueOpening (s : Simulation) (o : Opened) :
    Bus × Turn Opening (Except StoreError Nat) → Begun
  | (bus, .waiting c) => ({ s with bus }, .waiting (.opening c o))
  | (bus, .ended r) =>
    let (s, r) := { s with bus }.opened o r
    s.reply r

def openNew (s : Simulation) (store : Store) (o : Opened) : Begun :=
  s.continueOpening o (s.bus.openStore store)

/-- Opens a factory's store, or the one it has of that name. -/
def openFrom (s : Simulation) (f : StoreFactory) (store : String) (o : Opened) : Begun :=
  match f.stores.get? store with
  | some n =>
    let (s, r) := s.opened o (.ok n)
    s.reply r
  | none => s.openNew (f.store store) o

/-- The store of a choice, before its directory is made. -/
def ofChoice (home : String) : StoreChoice → Store
  | .memory name => .inMemory name
  | .file name => .inDirectory (Path.join (baseOf home) name) none
  | .clustered name node => .inDirectory (Path.join (baseOf home) name) (some node)

/-! ### Calls -/

/-- What a user with a number of visits is read from. -/
def decodeSession : Decoder (String × Nat) := fun d r => do
  let f ← r.record? ["user", "visits"] d
  some (← f.required "user" .text, ← f.required "visits" .word32)

def read (v : Json) : Reading → Option Answer
  | .value => some (.value v)
  | .session => (Decoder.value decodeSession v).map fun (user, visits) => .session user visits
  | .count => (Decoder.value .word64 v).map .count
  | .texts => (Decoder.value (.list .text) v).map .texts
  | .snapshot => (Decoder.value Snapshot.decode v).map fun s => .text s.toJson.render

def conclude (s : Simulation) (a : StoreAnswer) : Purpose → Simulation × Result
  | .done => (s, (a.mapError .store).map fun _ => .nothing)
  | .created stem => (s, (a.mapError .store).map fun _ => .created stem)
  | .reading r =>
    match a with
    | .error e => (s, .error (.store e))
    | .ok v =>
      match v >>= fun v => read v r with
      | some answer => (s, .ok answer)
      | none => (s, .error (.store (.serialization "another type")))
  | .retrieved id name =>
    match s.bus.restored id a with
    | .error e => (s, .error (.router e))
    | .ok e => (s.addExchange name e, .ok (.found e.id [] none))

def continueAccess (s : Simulation) (p : Purpose) : Bus × Turn Access StoreAnswer → Begun
  | (bus, .waiting c) => ({ s with bus }, .waiting (.accessing c p))
  | (bus, .ended a) =>
    let (s, r) := { s with bus }.conclude a p
    s.reply r

def callOn (s : Simulation) (p : Party) (store : String) (id : EntryId) (c : String → StoreCall)
    (purpose : Purpose) : Begun :=
  match s.store? store, s.entryId? p id with
  | .ok n, .ok id => s.continueAccess purpose (s.bus.callStore n (c id))
  | _, _ => s.reply (.error .unknown)

def ask (s : Simulation) (store : String) (f : Store → Option Answer) : Begun :=
  match s.store? store with
  | .error e => s.reply (.error e)
  | .ok n =>
    match f (s.bus.store n) with
    | some a => s.reply (.ok a)
    | none => s.reply (.error .unknown)

/-- Refuses calls on a store in memory, or no longer. -/
def refuse (s : Simulation) (store : String) (k : CallKind) (message : Option String) : Begun :=
  match s.store? store with
  | .error e => s.reply (.error e)
  | .ok n =>
    let old := s.bus.store n
    match old.shelf with
    | .directory .. => s.reply (.error .unknown)
    | .memory m =>
      let new := { old with shelf := .memory (m.refuse k message) }
      { s with bus := { s.bus with stores := s.bus.stores.set n new } }.reply (.ok .nothing)

/-! ### Files -/

def directory? (s : Simulation) : Place → Except Failure String
  | .ofStore name => do
    match (s.bus.store (← s.store? name)).directory? with
    | some d => .ok d
    | none => .error .unknown
  | .named path => .ok (Path.join s.home path)

def setFiles (s : Simulation) (files : Tree) : Simulation := { s with bus := { s.bus with files } }

def onFiles (s : Simulation) : Tree × Except DiskError Unit → Begun
  | (files, .ok ()) => (s.setFiles files).reply (.ok .nothing)
  | (files, .error e) => (s.setFiles files).reply (.error (.store (.io (.disk e))))

/-- The names in a directory, a slash after those of directories. -/
def listing (t : Tree) (directory : String) : List String :=
  match t.locate directory with
  | .error _ => []
  | .ok here =>
    sortBy id <| (t.children here).map fun
      | (n, .directory) => n ++ "/"
      | (n, .file _) => n

def writeWhole (t : Tree) (path : String) (content : Document) :
    Tree × Except DiskError Unit :=
  match t.create path with
  | .error e => (t, .error e)
  | .ok t =>
    match t.write path content with
    | .ok t => (t, .ok ())
    | .error e => (t, .error e)

def atPlace (s : Simulation) (p : Place) (f : String → Begun) : Begun :=
  match s.directory? p with
  | .ok d => f d
  | .error e => s.reply (.error e)

def breakDirectory (t : Tree) (directory : String) (parked : Location) (missing : Bool) : Tree :=
  match t.locate directory with
  | .error _ => t
  | .ok here =>
    let t := t.move here parked
    if missing then t else t.insert here (.file [])

def repairDirectory (t : Tree) (directory : String) (parked : Location) : Tree :=
  match t.locate directory with
  | .error _ => t
  | .ok here => t.move parked here

/-! ### All actions -/

def onStore (s : Simulation) (p : Party) : StoreAction → Begun
  | .openStore name c => s.openNew (ofChoice s.home c) (.named name)
  | .factory name backend node =>
    { s with factories := s.factories.insert name ⟨backend, baseOf s.home, node, .empty⟩ }.reply
      (.ok (.text (Json.text backend.display).render))
  | .factoryOpen f store name =>
    match s.factories.get? f with
    | none => s.reply (.error .unknown)
    | some factory => s.openFrom factory store (.made f store name)
  | .factoryDiagnostic f =>
    match s.factories.get? f with
    | none => s.reply (.error .unknown)
    | some factory => s.reply (.ok (.text factory.diagnostic))
  | .same a b =>
    match s.store? a, s.store? b with
    | .ok x, .ok y => s.reply (.ok (.flag (x = y)))
    | _, _ => s.reply (.error .unknown)
  | .put store id data => s.callOn p store id (.put · data) .done
  | .putNew store name data =>
    match s.store? store with
    | .error e => s.reply (.error e)
    | .ok n =>
      let ids := (s.bus.store n).ids
      let (s, tail) := s.makeUp name
      let id := ids.stem ++ tail
      { s with entries := s.entries.insert name id }.callOn p store (.literal id) (.put · data)
        (.created ids.stem)
  | .load store id r => s.callOn p store id .get (.reading r)
  | .remove store id => s.callOn p store id .remove .done
  | .nextId store => s.ask store fun st => some (.nextId st.ids.stem)
  | .name store => s.ask store fun st => some (.text st.name)
  | .features store names =>
    s.ask store fun st => some (.features st.features (names.map st.hasFeature))
  | .size store => s.ask store fun st => st.size?.map .size
  | .diagnostic store => s.ask store fun st => some (.text st.diagnostic)
  | .refuse store k message => s.refuse store k message
  | .files place =>
    s.atPlace place fun d => s.reply (.ok (.texts (listing s.bus.files d)))
  | .replaceContent place file content =>
    s.atPlace place fun d => s.onFiles (writeWhole s.bus.files (filePath d file) content)
  | .contentOf place file => s.atPlace place fun d =>
    match s.bus.files.read (filePath d file) with
    | .error e => s.reply (.error (.store (.io (.disk e))))
    | .ok content =>
      match content.text? with
      | some text => s.reply (.ok (.text text))
      | none => s.reply (.error .unreadable)
  | .makeDirectory place file =>
    s.atPlace place fun d => s.onFiles (s.bus.files.makeDirectories (filePath d file))
  | .break store missing => s.atPlace (.ofStore store) fun d =>
    (s.setFiles (breakDirectory s.bus.files d s.parked missing)).reply (.ok .nothing)
  | .repair store => s.atPlace (.ofStore store) fun d =>
    (s.setFiles (repairDirectory s.bus.files d s.parked)).reply (.ok .nothing)

end ServiceBus.Simulation
