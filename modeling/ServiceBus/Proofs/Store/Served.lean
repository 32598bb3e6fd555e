import ServiceBus.Proofs.Files.Inside
import ServiceBus.Proofs.Store.Kept
import ServiceBus.Proofs.Store.Records

/-!
# Calls that have the disk to themselves

`DirectoryCall.serve` has the disk carry out one operation after another, until the call ends. What
a call has stored is in the record file of its id, and there it stays until someone stores or
removes an entry of this id (`Spares`). So it can be loaded, unless it nests so deeply that only the
record around it is one level too many (`load_of_stored`).
-/

namespace ServiceBus

namespace DirectoryCall
variable {t t' : Tree} {c c' : DirectoryCall} {w : Writing} {id : String} {r : StoreAnswer}

/-! ### Serving calls -/

/-- The calls on the way to an end are ever further. -/
def left : DirectoryCall → Nat
  | .creating _ => 7
  | .filling _ => 6
  | .syncing _ => 5
  | .renaming _ => 4
  | .openingParent _ => 3
  | .syncingParent _ => 2
  | .discarding .. | .reading .. | .removing .. => 1

theorem left_of_resume {a : Except DiskError Document} (h : c.resume a = .waiting c') :
    c'.left < c.left := by
  revert h
  fun_cases resume c a <;> intro h <;> cases h <;> simp [left]

/-- What has come of a call. -/
structure Served where
  tree : Tree
  /-- The errors that the disk has reported on the way. -/
  errors : List DiskError
  answer : StoreAnswer

def errorsOf : Except DiskError Document → List DiskError
  | .ok _ => []
  | .error e => [e]

/-- Has the disk carry out what the call needs, until it ends. -/
def serve (t : Tree) (c : DirectoryCall) : Served :=
  let p := t.perform c.operation
  match _h : c.resume p.2 with
  | .ended r => ⟨p.1, errorsOf p.2, r⟩
  | .waiting c' =>
    let s := serve p.1 c'
    { s with errors := errorsOf p.2 ++ s.errors }
termination_by c.left
decreasing_by exact left_of_resume _h

theorem serve_of_ended (h : c.resume (t.perform c.operation).2 = .ended r) :
    c.serve t = ⟨(t.perform c.operation).1, errorsOf (t.perform c.operation).2, r⟩ := by
  rw [serve]
  split <;> simp_all

theorem serve_of_waiting (h : c.resume (t.perform c.operation).2 = .waiting c') :
    c.serve t = { c'.serve (t.perform c.operation).1 with
      errors := errorsOf (t.perform c.operation).2 ++
        (c'.serve (t.perform c.operation).1).errors } := by
  rw [serve]
  split <;> simp_all

theorem answer_of_waiting (h : c.resume (t.perform c.operation).2 = .waiting c')
    (rest : (c'.serve (t.perform c.operation).1).answer = r) : (c.serve t).answer = r := by
  rw [serve_of_waiting h]
  exact rest

theorem answer_of_ended (h : c.resume (t.perform c.operation).2 = .ended r) :
    (c.serve t).answer = r := by
  rw [serve_of_ended h]

/-! ### Writing -/

/-- What a write that has come this far has left in its files. -/
def Written (t : Tree) : DirectoryCall → Prop
  | .syncing w | .renaming w => t.content? w.temporary = some w.content
  | .openingParent w | .syncingParent w => t.content? w.record = some w.content
  | .creating _ | .filling _ | .discarding .. | .reading .. | .removing .. => True

/-- An operation that the disk has carried out brings the write further. -/
theorem written_perform (written : Written t c) {d : Document}
    (performed : (t.perform c.operation).2 = .ok d) (goes : c.resume (.ok d) = .waiting c') :
    Written (t.perform c.operation).1 c' := by
  cases c with
  | creating w => cases goes; trivial
  | filling w => cases goes; exact Tree.content?_perform_write performed
  | syncing w => cases goes; exact written
  | openingParent w => cases goes; exact written
  | syncingParent | reading | removing | discarding => cases goes
  | _ w =>
    cases goes
    exact (Tree.content?_perform_rename performed).trans written

theorem writing?_of_resume {a : Except DiskError Document} (h : c.resume a = .waiting c') :
    c'.writing? = c.writing? := by
  revert h
  fun_cases resume c a <;> intro h <;> cases h <;> rfl

/-- A call that goes on after an error is a write, and takes its temporary file away. -/
theorem discarding_of_resume {e : DiskError} (h : c.resume (.error e) = .waiting c') :
    ∃ w, c.writing? = some w ∧ c' = .discarding w e := by
  cases c with
  | reading | removing => cases e <;> cases h
  | discarding => cases h
  | _ w =>
    cases h
    exact ⟨w, rfl, rfl⟩

/-- After a failure a write promises nothing, so whatever the disk answers the promise is kept. -/
theorem written_of_resume (written : Written t c)
    (goes : c.resume (t.perform c.operation).2 = .waiting c') :
    Written (t.perform c.operation).1 c' := by
  cases performed : (t.perform c.operation).2 with
  | ok d => exact written_perform written performed (performed ▸ goes)
  | error e =>
    obtain ⟨w, -, rfl⟩ := discarding_of_resume (performed ▸ goes)
    trivial

/-- What has been stored is in the record file. -/
theorem content?_of_served (written : Written t c) (writing : c.writing? = some w)
    (ok : (c.serve t).answer = .ok none) : (c.serve t).tree.content? w.record = some w.content := by
  fun_induction serve t c with
  | case1 t c p r ended =>
    cases c with
    | syncingParent v => cases writing; exact written
    | discarding v e => cases ended; cases ok
    | reading | removing => cases writing
    | _ => cases hp : p.2 <;> rw [hp] at ended <;> cases ended
  | case2 t c p c' goes s ih =>
    exact ih (written_of_resume written goes) (writing?_of_resume goes ▸ writing) ok

/-! ### Reading -/

/-- What a store makes of the disk's answer about a record file. -/
def loaded (id : String) : Except DiskError Document → StoreAnswer
  | .ok d => answer id d
  | .error .notFound => .error (.notFound id)
  | .error e => .error (.io (.disk e))

theorem answer_reading (path id : String) (t : Tree) :
    ((DirectoryCall.reading path id).serve t).answer =
      loaded id (t.read (filePath path (recordName id))) := by
  refine answer_of_ended ?_
  show resume _ (t.read (filePath path (recordName id))) = _
  cases t.read (filePath path (recordName id)) with
  | ok d => rfl
  | error e => cases e <;> rfl

end DirectoryCall

/-! ### What has been stored stays -/

/-- From `t` to `t'` nobody puts a record file of this id in place or removes one. -/
inductive Spares (id : String) (t : Tree) : Tree → Prop
  | refl : Spares id t t
  | opens {t' : Tree} (h : Spares id t t') (path : String) :
    Spares id t (t'.perform (.makeDirectories path)).1
  | performs {t' : Tree} (h : Spares id t t') {c : DirectoryCall}
    (other : c.id = id → c.isEffective = false) : Spares id t (t'.perform c.operation).1

theorem Tree.Furnishes.content?_eq {t t' : Tree} {path : String} {d : Document}
    (h : t.Furnishes t') (hd : t.content? path = some d) : t'.content? path = some d := by
  obtain ⟨l, located, file⟩ := content?_eq_some_iff.1 hd
  refine content?_eq_some_iff.2 ⟨l, (h.becomes l).directories.locate located, ?_⟩
  obtain e | ⟨absent, -⟩ := h l
  · rw [e, file]
  · rw [absent] at file
    cases file

theorem Spares.record?_eq {t t' : Tree} {id path : String} {d : Document} (h : Spares id t t')
    (hd : t.record? path id = some d) : t'.record? path id = some d := by
  induction h with
  | refl => exact hd
  | opens h p ih => exact (Tree.furnishes_makeDirectories _ p).content?_eq ih
  | performs h other ih => exact (Tree.record?_perform _ other path).trans ih

namespace Store
variable {s : Store} {path id : String} {features : List StoreFeature} {t t' : Tree}
  {m n : Nat} {data : Json}

/-- Has the disk carry out what a call on the store needs, until it ends. -/
def serve (s : Store) (mark : Nat) (c : StoreCall) (t : Tree) : DirectoryCall.Served :=
  match (s.start mark c).2 with
  | .ended r => ⟨t, [], r⟩
  | .waiting call => call.serve t

theorem serve_of_directory (h : s.shelf = .directory path features) (mark : Nat) (c : StoreCall)
    (t : Tree) : s.serve mark c t = (c.begin path mark).serve t := by
  rw [serve, start_of_directory h]

theorem answer_get (h : s.shelf = .directory path features) (mark : Nat) (id : String) (t : Tree) :
    (s.serve mark (.get id) t).answer =
      DirectoryCall.loaded id (t.read (filePath path (recordName id))) := by
  rw [serve_of_directory h]
  exact DirectoryCall.answer_reading path id t

theorem record?_of_stored (shelf : s.shelf = .directory path features)
    (stored : (s.serve m (.put id data) t).answer = .ok none) :
    (s.serve m (.put id data) t).tree.record? path id =
      some (Record.write ⟨Record.currentVersion, id, data⟩) := by
  rw [serve_of_directory shelf] at stored ⊢
  exact DirectoryCall.content?_of_served (w := ⟨path, id, data, m⟩) trivial rfl stored

/-- What has been stored is what is loaded, as long as its record is not nested too deeply. -/
theorem load_of_stored (shelf : s.shelf = .directory path features) (whole : data.isWhole = true)
    (ordered : data.canonical = data) (stored : (s.serve m (.put id data) t).answer = .ok none)
    (spares : Spares id (s.serve m (.put id data) t).tree t') :
    (s.serve n (.get id) t').answer =
      if data.depth < Raw.nesting then .ok (some data)
      else .error (.serialization "not a record") := by
  have kept := spares.record?_eq (record?_of_stored shelf stored)
  rw [answer_get shelf, Tree.content?_eq_some_iff_read.1 kept]
  exact DirectoryCall.answer_write_of_isWhole whole ordered

/-- An array in an array and so on, so many levels deep. -/
def nested : Nat → Json
  | 0 => .null
  | n + 1 => .array [nested n]

theorem isWhole_nested (n : Nat) : (nested n).isWhole = true := by
  induction n with
  | zero => rfl
  | succ n ih => simp [nested, Json.isWhole, Json.areWhole, ih]

theorem canonical_nested (n : Nat) : (nested n).canonical = nested n := by
  induction n with
  | zero => rfl
  | succ n ih => simp [nested, Json.canonical, Json.canonicalItems, ih]

theorem depth_nested (n : Nat) : (nested n).depth = n := by
  induction n with
  | zero => rfl
  | succ n ih => simp [nested, Json.depth, Json.depthItems, ih]

theorem stored_nested :
    ((inDirectory "/" none).serve 0 (.put "x" (nested 126)) .empty).answer = .ok none ∧
    ((inDirectory "/" none).serve 0 (.put "x" (nested 127)) .empty).answer = .ok none := by
  constructor <;>
  · rw [serve_of_directory rfl, StoreCall.begin]
    refine DirectoryCall.answer_of_waiting rfl ?_
    refine DirectoryCall.answer_of_waiting rfl ?_
    refine DirectoryCall.answer_of_waiting rfl ?_
    refine DirectoryCall.answer_of_waiting rfl ?_
    refine DirectoryCall.answer_of_waiting rfl ?_
    exact DirectoryCall.answer_of_ended rfl

/-- The deepest value that is loaded again. -/
theorem load_of_stored_nested :
    ((inDirectory "/" none).serve 0 (.put "x" (nested 126)) .empty).answer = .ok none ∧
    ((inDirectory "/" none).serve 1 (.get "x")
      ((inDirectory "/" none).serve 0 (.put "x" (nested 126)) .empty).tree).answer =
        .ok (some (nested 126)) := by
  have loaded := load_of_stored (n := 1) rfl (isWhole_nested 126) (canonical_nested 126)
    stored_nested.1 .refl
  rw [if_pos (by rw [depth_nested]; decide)] at loaded
  exact ⟨stored_nested.1, loaded⟩

/-- One level more can be read, and is stored, but its record cannot be read. -/
theorem not_load_of_stored : ¬ ∀ (s : Store) (path : String) (features : List StoreFeature)
    (id : String) (data : Json) (t t' : Tree) (m n : Nat), s.shelf = .directory path features →
    data.isWhole = true → data.canonical = data →
    (s.serve m (.put id data) t).answer = .ok none →
    Spares id (s.serve m (.put id data) t).tree t' →
    (s.serve n (.get id) t').answer = .ok (some data) := by
  intro claimed
  have loaded := claimed (inDirectory "/" none) "/" [.persistent] "x" (nested 127) .empty _ 0 1 rfl
    (isWhole_nested 127) (canonical_nested 127) stored_nested.2 .refl
  have kept := record?_of_stored rfl stored_nested.2
  rw [answer_get rfl, Tree.content?_eq_some_iff_read.1 kept, DirectoryCall.loaded,
    DirectoryCall.answer_write_of_isWhole (isWhole_nested 127) (canonical_nested 127),
    if_neg (by rw [depth_nested]; decide)] at loaded
  cases loaded

end Store
end ServiceBus
