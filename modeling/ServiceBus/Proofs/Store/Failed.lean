import ServiceBus.Proofs.Store.Served

/-!
# Writes on a disk that fails

Any operation of a write may fail. A failure before the record is in place leaves every record as it
was; one that comes later, when the directory is to be made safe, leaves the new record in place
though the call reports that it could not be written (`load_of_failed`).
-/

namespace ServiceBus

/-! ### What a reader sees -/

namespace Tree
variable {t t' : Tree} {here : Location} {paths : List String} {directory n : String}

theorem follow_congr (h : t'.find? = t.find?) : t'.follow = t.follow := by
  funext here part
  unfold follow enter
  rw [h]

theorem locate_congr (h : t'.find? = t.find?) (path : String) : t'.locate path = t.locate path := by
  unfold locate walk
  rw [follow_congr h]

theorem read_congr (h : t'.find? = t.find?) (path : String) : t'.read path = t.read path := by
  unfold read
  rw [locate_congr h, h]

/-- Whoever reads a file sees nothing of changes to files of other names, not even by the errors. -/
theorem Touches.read_eq (h : Touches paths t t') (plain : PlainName n)
    (ne : ∀ p ∈ paths, ∃ m, PlainName m ∧ m ≠ n ∧ p = filePath directory m) :
    t'.read (filePath directory n) = t.read (filePath directory n) := by
  by_cases there : ∃ here, t.walk [] (Path.parts directory) = .ok here ∧
    t.find? here = some .directory
  · obtain ⟨here, walked, isDirectory⟩ := there
    have located := locate_filePath_of_directory plain walked isDirectory
    have located' := locate_filePath_of_directory plain (h.directories.keeps.walk walked)
      (h.directories.keeps here isDirectory)
    unfold read
    rw [located', ← located]
    cases hl : t.locate (filePath directory n) with
    | error e => rfl
    | ok l =>
      have same : t'.find? l = t.find? l := by
        refine h.find?_eq l fun p hp => ?_
        obtain ⟨m, hm, hmn, rfl⟩ := ne p hp
        exact locate_filePath_ne plain hm hmn.symm hl
      simp only [bind, Except.bind, same]
  · refine read_congr (funext fun l => h.find?_eq l fun p hp located => there ?_) _
    obtain ⟨m, hm, -, rfl⟩ := ne p hp
    obtain ⟨here, walked, isDirectory, -⟩ := locate_filePath hm located
    exact ⟨here, walked, isDirectory⟩

end Tree

/-! ### Operations that fail -/

namespace DirectoryCall
variable {before t t' t'' : Tree} {c c' stage : DirectoryCall} {w : Writing}
  {a : Except DiskError Document} {r : StoreAnswer} {failed : List DirectoryCall}

/-- The files in which an operation of the call that fails may leave anything. -/
def spoiled : DirectoryCall → List String
  | .filling w | .syncing w | .discarding w _ => [w.temporary]
  | .creating _ | .renaming _ | .openingParent _ | .syncingParent _ | .reading .. | .removing .. =>
    []

theorem eq_temporary_of_mem_spoiled {p : String} (writing : c.writing? = some w)
    (h : p ∈ c.spoiled) : p = w.temporary := by
  cases c <;> cases writing <;> simp only [spoiled, List.not_mem_nil, List.mem_singleton] at h
  all_goals exact h

/-- What the disk may make of the operation that a call needs, and how it may answer. -/
inductive Attempt (t : Tree) (c : DirectoryCall) : Tree → Except DiskError Document → Prop
  | performed : Attempt t c (t.perform c.operation).1 (t.perform c.operation).2
  | failed {t' : Tree} (e : DiskError) (touches : t.Touches c.spoiled t') :
    Attempt t c t' (.error e)

/-- The call, if that was the disk's answer to it. -/
def failedOf (c : DirectoryCall) : Except DiskError Document → List DirectoryCall
  | .ok _ => []
  | .error _ => [c]

/-- A call up to its end, on a disk that may fail each time, and where it has failed. -/
inductive Endures : Tree → DirectoryCall → List DirectoryCall → Tree → StoreAnswer → Prop
  | ends {t t' : Tree} {c : DirectoryCall} {a : Except DiskError Document} {r : StoreAnswer}
    (attempt : Attempt t c t' a) (ended : c.resume a = .ended r) :
    Endures t c (c.failedOf a) t' r
  | goes {t t' t'' : Tree} {c c' : DirectoryCall} {a : Except DiskError Document}
    {failed : List DirectoryCall} {r : StoreAnswer} (attempt : Attempt t c t' a)
    (waiting : c.resume a = .waiting c') (rest : Endures t' c' failed t'' r) :
    Endures t c (c.failedOf a ++ failed) t'' r

/-- The records read as before, but for the one that is being written if it is in place. -/
def Reads (before : Tree) (w : Writing) (placed : Bool) (t : Tree) : Prop :=
  ∀ id, t.read (filePath w.directory (recordName id)) =
    if placed = true ∧ id = w.id then .ok w.content
    else before.read (filePath w.directory (recordName id))

/-- Only the renaming shows. -/
theorem Attempt.read_eq (attempt : Attempt t c t' a) (writing : c.writing? = some w)
    (unplaced : c = .renaming w → ∃ e, a = .error e) (id : String) :
    t'.read (filePath w.directory (recordName id)) =
      t.read (filePath w.directory (recordName id)) := by
  have temporary {paths : List String} (h : t.Touches paths t')
      (all : ∀ p ∈ paths, p = w.temporary) : t'.read (filePath w.directory (recordName id)) =
        t.read (filePath w.directory (recordName id)) :=
    h.read_eq (plainName_recordName id) fun p hp => ⟨_, plainName_temporaryName w.id w.mark,
      temporaryName_ne_recordName _ _ _, all p hp⟩
  cases attempt with
  | failed e touches =>
    exact temporary touches fun p hp => eq_temporary_of_mem_spoiled writing hp
  | performed =>
    by_cases effective : c.isEffective = true
    · obtain rfl : c = .renaming w := by
        cases c <;> cases effective <;> cases writing
        rfl
      obtain ⟨e, he⟩ := unplaced rfl
      rw [show (t.perform (DirectoryCall.renaming w).operation).1 = t from
        Tree.perform_of_error rfl he]
    · refine temporary (Tree.touches_perform t c.makesDirectories_operation) fun p hp => ?_
      obtain ⟨v, hv, rfl⟩ | ⟨h, -⟩ := touched_operation hp
      · cases writing.symm.trans hv
        rfl
      · exact absurd h effective

/-- Whether the record is in place, and the directory is being made safe. -/
def isLate : DirectoryCall → Bool
  | .openingParent _ | .syncingParent _ => true
  | _ => false

/-- The renaming puts the record in place, for it to be read. -/
theorem read_of_renamed {d : Document} (written : Written t (.renaming w))
    (ok : (t.perform (DirectoryCall.renaming w).operation).2 = .ok d) (id : String) :
    (t.perform (DirectoryCall.renaming w).operation).1.read
        (filePath w.directory (recordName id)) =
      if id = w.id then .ok w.content else t.read (filePath w.directory (recordName id)) := by
  split
  · next e =>
    subst e
    exact Tree.content?_eq_some_iff_read.1 ((Tree.content?_perform_rename ok).trans written)
  · next ne =>
    refine (Tree.touches_perform t (makesDirectories_operation _)).read_eq
      (plainName_recordName id) fun p hp => ?_
    obtain ⟨v, hv, rfl⟩ | ⟨-, rfl⟩ := touched_operation hp
    · cases hv
      exact ⟨_, plainName_temporaryName w.id w.mark, temporaryName_ne_recordName _ _ _, rfl⟩
    · exact ⟨_, plainName_recordName w.id, fun e => ne (recordName_injective e).symm, rfl⟩

theorem Reads.attempt {placed : Bool} (reads : Reads before w placed t)
    (attempt : Attempt t c t' a) (writing : c.writing? = some w)
    (unplaced : c = .renaming w → ∃ e, a = .error e) : Reads before w placed t' :=
  fun id => (attempt.read_eq writing unplaced id).trans (reads id)

/-- A write on its way, and what the records are then: its own is in place if the write is late, or
was so when it failed. -/
structure Stage (before : Tree) (w : Writing) (t : Tree) (placed : Bool) (c : DirectoryCall) :
    Prop where
  writing : c.writing? = some w
  written : Written t c
  reads : Reads before w (placed || c.isLate) t

namespace Stage
variable {placed : Bool}

theorem fails {e : DiskError} (stage : Stage before w t placed c)
    (attempt : Attempt t c t' (.error e)) (waiting : c.resume (.error e) = .waiting c') :
    Stage before w t' (placed || c.isLate) c' := by
  obtain ⟨v, hv, rfl⟩ := discarding_of_resume waiting
  cases stage.writing.symm.trans hv
  refine ⟨rfl, trivial, ?_⟩
  show Reads before w ((placed || c.isLate) || false) t'
  rw [Bool.or_false]
  exact stage.reads.attempt attempt stage.writing fun _ => ⟨e, rfl⟩

theorem renames {d : Document} (stage : Stage before w t placed (.renaming w))
    (ok : (t.perform (DirectoryCall.renaming w).operation).2 = .ok d) :
    Stage before w (t.perform (DirectoryCall.renaming w).operation).1 placed
      (.openingParent w) := by
  refine ⟨rfl, written_perform stage.written ok rfl, fun id => ?_⟩
  rw [read_of_renamed stage.written ok, stage.reads id]
  by_cases own : id = w.id <;> simp [own, isLate]

theorem goes {d : Document} (stage : Stage before w t placed c)
    (attempt : Attempt t c t' (.ok d)) (waiting : c.resume (.ok d) = .waiting c') :
    Stage before w t' placed c' := by
  generalize ha : Except.ok d = a at attempt
  cases attempt with
  | failed => cases ha
  | performed =>
    by_cases last : c = .renaming w
    · subst last
      cases waiting
      exact stage.renames ha.symm
    · have same : c'.isLate = c.isLate := by
        cases c <;> cases waiting <;> first | rfl | cases stage.writing; exact absurd rfl last
      refine ⟨writing?_of_resume waiting ▸ stage.writing,
        written_perform stage.written ha.symm waiting, ?_⟩
      rw [same]
      exact stage.reads.attempt .performed stage.writing fun e => absurd e last

end Stage

/-- What the records are after a write that has failed. -/
theorem Endures.reads {x : StoreError} (run : Endures t c failed t' (.error x)) {placed : Bool}
    (stage : Stage before w t placed c) : Reads before w (placed || failed.any isLate) t' := by
  generalize hr : Except.error x = r at run
  induction run generalizing placed with
  | @ends t t' c a r attempt ended =>
    subst hr
    have own := stage.writing
    have reads := stage.reads
    cases c with
    | discarding v e =>
      have none : ((discarding v e).failedOf a).any isLate = false := by cases a <;> rfl
      rw [none]
      exact reads.attempt attempt own nofun
    | reading | removing => cases own
    | _ => cases a <;> cases ended
  | @goes t t' t'' c c' a failed r attempt waiting rest ih =>
    cases a with
    | ok d => exact ih (stage.goes attempt waiting) hr
    | error e =>
      have reads := ih (stage.fails attempt waiting) hr
      rw [Bool.or_assoc] at reads
      exact reads

theorem reads_of_failed {x : StoreError} (run : Endures t (.creating w) failed t' (.error x)) :
    Reads t w (failed.any isLate) t' := by
  have stage : Stage t w t false (.creating w) := ⟨rfl, trivial, fun id => by simp [isLate]⟩
  exact run.reads stage

end DirectoryCall

namespace Store
variable {s : Store} {path id : String} {features : List StoreFeature} {t t' : Tree}
  {m mark : Nat} {data : Json} {failed : List DirectoryCall} {x : StoreError}

/-- After a write that has failed every entry loads as before, but for its own if it failed with the
record in place. -/
theorem load_of_failed (shelf : s.shelf = .directory path features)
    (run : DirectoryCall.Endures t ((StoreCall.put id data).begin path mark) failed t' (.error x))
    (i : String) :
    (s.serve m (.get i) t').answer =
      if failed.any DirectoryCall.isLate = true ∧ i = id then
        DirectoryCall.answer id (Record.write ⟨Record.currentVersion, id, data⟩)
      else (s.serve m (.get i) t).answer := by
  rw [answer_get shelf, answer_get shelf, DirectoryCall.reads_of_failed run i]
  split
  · next placed =>
    obtain ⟨-, rfl⟩ := placed
    rfl
  · rfl

/-- The disk writes nothing, and all entries are as before. -/
theorem load_of_failed_filling : ∃ (t' : Tree) (failed : List DirectoryCall) (x : StoreError),
    DirectoryCall.Endures .empty ((StoreCall.put "x" .null).begin "/" 0) failed t' (.error x) ∧
    ∀ i, ((inDirectory "/" none).serve 1 (.get i) t').answer =
      ((inDirectory "/" none).serve 1 (.get i) .empty).answer := by
  have run : DirectoryCall.Endures .empty ((StoreCall.put "x" .null).begin "/" 0) _ _ _ :=
    .goes .performed rfl (.goes (.failed .nameTooLong (.refl _ _)) rfl (.ends .performed rfl))
  exact ⟨_, _, _, run, fun i => load_of_failed rfl run i⟩

/-- The directory cannot be opened to be made safe, and the record that could not be written is
there. -/
theorem not_load_of_failed : ¬ ∀ (s : Store) (path : String) (features : List StoreFeature)
    (id : String) (data : Json) (t t' : Tree) (m mark : Nat) (failed : List DirectoryCall)
    (x : StoreError), s.shelf = .directory path features →
    DirectoryCall.Endures t ((StoreCall.put id data).begin path mark) failed t' (.error x) →
    ∀ i, (s.serve m (.get i) t').answer = (s.serve m (.get i) t).answer := by
  intro claimed
  have run : DirectoryCall.Endures .empty ((StoreCall.put "x" .null).begin "/" 0) _ _ _ :=
    .goes .performed rfl (.goes .performed rfl (.goes .performed rfl (.goes .performed rfl
      (.goes (.failed .notFound (.refl _ _)) rfl (.ends .performed rfl)))))
  have same := claimed (inDirectory "/" none) "/" [.persistent] "x" .null _ _ 1 0 _ _ rfl run "x"
  have absent : Tree.empty.read (filePath "/" (recordName "x")) = .error .notFound := rfl
  have readable : Json.null.ReadsBack := Json.readsBack_of_isWhole rfl rfl (by decide)
  rw [answer_get rfl, answer_get rfl, DirectoryCall.reads_of_failed run "x", if_pos ⟨rfl, rfl⟩,
    absent] at same
  cases (DirectoryCall.answer_write readable).symm.trans same

end Store
end ServiceBus
