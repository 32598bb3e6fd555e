import ServiceBus.Proofs.Files.Inside
import ServiceBus.Proofs.Store.Kept

/-!
# The record files of stores that share a directory

Stores share a directory when their paths lead to it, however these are spelled. As long as the disk
reports no error but that something is not there, a call goes on from its temporary file to its
record (`DirectoryCall.Advances`); of the record files of all ids, `Tree.records`, it changes only
its own, and that in one operation (`Advances.records_eq`).
-/

namespace ServiceBus

/-- What the record files directly inside of a directory hold, by id. -/
def Tree.records (t : Tree) (here : Location) : String → Option Document :=
  t.held? here ∘ recordName

namespace Tree
variable {t t' : Tree} {here : Location} {f : String → Option Document}

theorem Becomes.records_eq (h : Becomes t here f t') : t'.records here = f ∘ recordName :=
  congrArg (· ∘ recordName) (funext h.held?_eq)

theorem update_recordName (f : String → Option Document) (id : String) (x : Option Document) :
    Function.update f (recordName id) x ∘ recordName = Function.update (f ∘ recordName) id x :=
  Function.update_comp_eq_of_injective f (fun _ _ => recordName_injective) id x

theorem update_temporaryName (f : String → Option Document) (id : String) (mark : Nat)
    (x : Option Document) :
    Function.update f (temporaryName id mark) x ∘ recordName = f ∘ recordName :=
  Function.update_comp_eq_of_forall_ne f x fun j => (temporaryName_ne_recordName id j mark).symm

end Tree

namespace DirectoryCall
variable {t t' : Tree} {here : Location} {c c' : DirectoryCall}
  {turn : Turn DirectoryCall StoreAnswer}

/-- What a store says of a record file, or of one that is not there. -/
def told (id : String) : Option Document → StoreAnswer
  | some d => answer id d
  | none => .error (.notFound id)

/-- The temporary file is as the call has left it, and nothing has failed. -/
def Prepared (t : Tree) (here : Location) : DirectoryCall → Prop
  | .filling w => t.held? here (temporaryName w.id w.mark) ≠ none
  | .syncing w | .renaming w => t.held? here (temporaryName w.id w.mark) = some w.content
  | .discarding .. => False
  | .creating _ | .openingParent _ | .syncingParent _ | .reading .. | .removing .. => True

/-- How a call goes on in a shared directory. -/
inductive Advances (here : Location) (t : Tree) :
    DirectoryCall → Tree → Turn DirectoryCall StoreAnswer → Prop
  | creates {w : Writing} {t' : Tree} (becomes : t.Becomes here
      (Function.update (t.held? here) (temporaryName w.id w.mark) (some [])) t') :
    Advances here t (.creating w) t' (.waiting (.filling w))
  | fills {w : Writing} {t' : Tree} (becomes : t.Becomes here
      (Function.update (t.held? here) (temporaryName w.id w.mark) (some w.content)) t') :
    Advances here t (.filling w) t' (.waiting (.syncing w))
  | syncs {w : Writing} (filled : t.held? here (temporaryName w.id w.mark) = some w.content) :
    Advances here t (.syncing w) t (.waiting (.renaming w))
  | renames {w : Writing} {t' : Tree} (becomes : t.Becomes here
      (Function.update (Function.update (t.held? here) (temporaryName w.id w.mark) none)
        (recordName w.id) (some w.content)) t') :
    Advances here t (.renaming w) t' (.waiting (.openingParent w))
  | opens {w : Writing} : Advances here t (.openingParent w) t (.waiting (.syncingParent w))
  | ends {w : Writing} : Advances here t (.syncingParent w) t (.ended (.ok none))
  | reads {path id : String} :
    Advances here t (.reading path id) t (.ended (told id (t.records here id)))
  | removes {path id : String} {t' : Tree} (becomes : t.Becomes here
      (Function.update (t.held? here) (recordName id) none) t') :
    Advances here t (.removing path id) t' (.ended (.ok none))

theorem advances (leads : t.Leads c.directory here) (prepared : c.Prepared t here)
    (mild : isMild (t.perform c.operation).2 = true) :
    Advances here t c (t.perform c.operation).1 (c.resume (t.perform c.operation).2) := by
  cases c with
  | creating w =>
    obtain ⟨ok, becomes⟩ := leads.create (plainName_temporaryName w.id w.mark) mild
    have created : (t.perform (creating w).operation).2 = .ok [] := ok
    rw [created]
    exact .creates becomes
  | filling w =>
    obtain ⟨ok, becomes⟩ := leads.write (plainName_temporaryName w.id w.mark) prepared mild
    have filled : (t.perform (filling w).operation).2 = .ok [] := ok
    rw [filled]
    exact .fills becomes
  | syncing w => exact .syncs prepared
  | openingParent w =>
    have opened : (t.perform (openingParent w).operation).2 = .ok [] := leads.openExisting
    rw [opened]
    exact .opens
  | syncingParent w => exact .ends
  | discarding w e => exact prepared.elim
  | reading path id =>
    have read : (t.perform (reading path id).operation).2 = match t.records here id with
        | some d => .ok d
        | none => .error .notFound := leads.read (plainName_recordName id) mild
    have ended : (reading path id).resume (t.perform (reading path id).operation).2 =
        .ended (told id (t.records here id)) := by
      rw [read]
      cases t.records here id <;> rfl
    rw [ended]
    exact .reads
  | removing path id =>
    have becomes := leads.remove (plainName_recordName id) mild
    have ended : (removing path id).resume (t.perform (removing path id).operation).2 =
        .ended (.ok none) := by
      cases h : (t.perform (removing path id).operation).2 with
      | ok d => rfl
      | error e =>
        rw [h] at mild
        cases of_decide_eq_true mild
        rfl
    rw [ended]
    exact .removes becomes
  | _ w =>
    obtain ⟨ok, becomes⟩ := leads.rename (plainName_recordName w.id)
      (plainName_temporaryName w.id w.mark) prepared mild
    have renamed : (t.perform (DirectoryCall.renaming w).operation).2 = .ok [] := ok
    rw [renamed]
    exact .renames becomes

namespace Advances

theorem keeps (h : Advances here t c t' turn) : t.KeepsDirectories t' := by
  cases h with
  | creates becomes | fills becomes | renames becomes | removes becomes =>
    exact becomes.directories
  | syncs | opens | ends | reads => exact fun _ hl => hl

/-- Only a renaming and a removal change record files, each that of its own id. -/
theorem records_eq (h : Advances here t c t' turn) :
    t'.records here = match c with
      | .renaming w => Function.update (t.records here) w.id (some w.content)
      | .removing _ id => Function.update (t.records here) id none
      | _ => t.records here := by
  cases h with
  | creates becomes | fills becomes =>
    rw [becomes.records_eq, Tree.update_temporaryName]
    rfl
  | renames becomes =>
    rw [becomes.records_eq, Tree.update_recordName, Tree.update_temporaryName]
    rfl
  | removes becomes =>
    rw [becomes.records_eq, Tree.update_recordName]
    rfl
  | syncs | opens | ends | reads => rfl

theorem prepared (h : Advances here t c t' (.waiting c')) : c'.Prepared t' here := by
  cases h with
  | creates becomes =>
    rw [Prepared, becomes.held?_eq, Function.update_self]
    exact Option.some_ne_none _
  | fills becomes => rw [Prepared, becomes.held?_eq, Function.update_self]
  | syncs filled => exact filled
  | renames | opens => trivial

theorem writing?_eq (h : Advances here t c t' (.waiting c')) : c'.writing? = c.writing? := by
  cases h <;> rfl

theorem directory_eq (h : Advances here t c t' (.waiting c')) : c'.directory = c.directory := by
  cases h <;> rfl

theorem id_eq (h : Advances here t c t' (.waiting c')) : c'.id = c.id := by
  cases h <;> rfl

theorem leads (h : Advances here t c t' (.waiting c')) (k : t.Leads c.directory here) :
    t'.Leads c'.directory here := by
  rw [h.directory_eq]
  exact h.keeps.leads k

/-- The temporary files of other writes stay as they are. -/
theorem held?_temporaryName (h : Advances here t c t' turn) {id : String} {mark : Nat}
    (ne : ∀ w, c.writing? = some w → w.mark ≠ mark) :
    t'.held? here (temporaryName id mark) = t.held? here (temporaryName id mark) := by
  have other {w : Writing} (hw : c.writing? = some w) :
      temporaryName id mark ≠ temporaryName w.id w.mark :=
    fun e => ne w hw (temporaryName_injective e).2.symm
  have record (i : String) : temporaryName id mark ≠ recordName i :=
    temporaryName_ne_recordName id i mark
  cases h with
  | creates becomes | fills becomes =>
    rw [becomes.held?_eq, Function.update_of_ne (other rfl)]
  | renames becomes =>
    rw [becomes.held?_eq, Function.update_of_ne (record _), Function.update_of_ne (other rfl)]
  | removes becomes => rw [becomes.held?_eq, Function.update_of_ne (record _)]
  | syncs | opens | ends | reads => rfl

end Advances

end DirectoryCall
end ServiceBus
