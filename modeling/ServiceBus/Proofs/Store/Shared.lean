import ServiceBus.Proofs.Store.Entries
import ServiceBus.Proofs.Store.Served

/-!
# Stores that share a directory answer like one store in memory

In a `Session` stores are opened on one directory, dropped, and called one at a time. Between two
calls the record files are the entries of a store in memory that has had the same calls (`Agrees`),
so the answers are the same (`Session.answers_eq`).
-/

namespace ServiceBus
open DirectoryCall

/-! ### One call -/

namespace DirectoryCall
variable {t t' : Tree} {here : Location} {c c' : DirectoryCall} {r : StoreAnswer}

/-- What the records are once the call has ended. -/
def settled (f : String → Option Document) : DirectoryCall → String → Option Document
  | .creating w | .filling w | .syncing w | .renaming w =>
    Function.update f w.id (some w.content)
  | .removing _ id => Function.update f id none
  | .openingParent _ | .syncingParent _ | .discarding .. | .reading .. => f

/-- What the call answers when nothing fails. -/
def replied (f : String → Option Document) : DirectoryCall → StoreAnswer
  | .reading _ id => told id (f id)
  | _ => .ok none

theorem Advances.ended (h : Advances here t c t' (.ended r)) :
    r = c.replied (t.records here) ∧ t'.records here = c.settled (t.records here) := by
  rw [h.records_eq]
  cases h <;> exact ⟨rfl, rfl⟩

theorem Advances.replied_eq (h : Advances here t c t' (.waiting c')) :
    c'.replied (t'.records here) = c.replied (t.records here) := by
  cases h <;> rfl

theorem Advances.settled_eq (h : Advances here t c t' (.waiting c')) :
    c'.settled (t'.records here) = c.settled (t.records here) := by
  rw [h.records_eq]
  cases h <;> rfl

theorem isMild_iff {a : Except DiskError Document} :
    isMild a = true ↔ ∀ e ∈ errorsOf a, e = .notFound := by
  cases a <;> simp [isMild, errorsOf]

theorem serve_shared (leads : t.Leads c.directory here) (prepared : c.Prepared t here)
    (mild : ∀ e ∈ (c.serve t).errors, e = .notFound) :
    t.KeepsDirectories (c.serve t).tree ∧ (c.serve t).answer = c.replied (t.records here) ∧
      (c.serve t).tree.records here = c.settled (t.records here) := by
  fun_induction serve t c with
  | case1 t c p r ended =>
    have advances := advances leads prepared (isMild_iff.2 mild)
    rw [ended] at advances
    exact ⟨advances.keeps, advances.ended⟩
  | case2 t c p c' goes s ih =>
    have advances := advances leads prepared (isMild_iff.2 fun e he =>
      mild e (List.mem_append_left _ he))
    rw [goes] at advances
    obtain ⟨keeps, answer, settled⟩ := ih (advances.leads leads) advances.prepared fun e he =>
      mild e (List.mem_append_right _ he)
    exact ⟨fun l hl => keeps l (advances.keeps l hl), answer.trans advances.replied_eq,
      settled.trans advances.settled_eq⟩

end DirectoryCall

/-! ### Stores in memory -/

namespace Memory

/-- The memory after one call after another. -/
def after (m : Memory) (cs : List StoreCall) : Memory := cs.foldl (fun m c => (m.answer c).1) m

/-- The answers to one call after another. -/
def answers (m : Memory) : List StoreCall → List StoreAnswer
  | [] => []
  | c :: cs => (m.answer c).2 :: answers (m.answer c).1 cs

theorem answers_append (m : Memory) (cs ds : List StoreCall) :
    m.answers (cs ++ ds) = m.answers cs ++ (m.after cs).answers ds := by
  induction cs generalizing m with
  | nil => rfl
  | cons c cs ih => simp [answers, after, ih]

end Memory

/-! ### Entries and records -/

/-- The records that a store in a directory would have of the entries. -/
def Memory.records (m : Memory) (id : String) : Option Document :=
  (m.entries.get? id).map fun data => Record.write ⟨Record.currentVersion, id, data⟩

/-- Memory that refuses nothing and holds values that can be read back. -/
structure Memory.Readable (m : Memory) : Prop where
  refuses_none : m.refused = .empty
  readsBack : ∀ id data, m.entries.get? id = some data → data.ReadsBack

namespace Memory.Readable
variable {m : Memory} {c : StoreCall}

theorem replied (h : m.Readable) (c : StoreCall) (path : String) (mark : Nat) :
    (c.begin path mark).replied m.records = (m.answer c).2 := by
  cases c with
  | put id data => exact (answer_ok h.refuses_none (c := .put id data) nofun).symm
  | remove id => exact (answer_ok h.refuses_none (c := .remove id) nofun).symm
  | get id =>
    simp only [StoreCall.begin, DirectoryCall.replied, records, answer, h.refuses_none,
      Table.get?_empty]
    cases hd : m.entries.get? id with
    | none => rfl
    | some data => exact answer_write (h.readsBack id data hd)

theorem settled (h : m.Readable) (c : StoreCall) (path : String) (mark : Nat) :
    (c.begin path mark).settled m.records = (m.answer c).1.records := by
  funext i
  rw [records, get?_answer h.refuses_none]
  cases c with
  | put id data =>
    show Function.update m.records id _ i = Option.map _ (if i = id then some data else _)
    rw [Function.update_apply]
    split
    · next own => rw [own]; rfl
    · rfl
  | get id => rfl
  | remove id =>
    show Function.update m.records id none i = Option.map _ (if i = id then none else _)
    rw [Function.update_apply]
    split <;> rfl

theorem after (h : m.Readable) (readable : ∀ id data, c = .put id data → data.ReadsBack) :
    (m.answer c).1.Readable := by
  refine ⟨(m.refused_answer c).trans h.refuses_none, fun i data hd => ?_⟩
  rw [get?_answer h.refuses_none] at hd
  cases c with
  | put id new =>
    dsimp only at hd
    split at hd
    · cases hd
      exact readable id _ rfl
    · exact h.readsBack i data hd
  | get id => exact h.readsBack i data hd
  | remove id =>
    dsimp only at hd
    split at hd
    · cases hd
    · exact h.readsBack i data hd

end Memory.Readable

/-! ### One call after another -/

/-- Stores are opened on the directory at `here`, dropped, and called one at a time. -/
inductive Session (here : Location) (t₀ : Tree) :
    Tree → List Store → List (StoreCall × Served) → Prop
  | start : Session here t₀ t₀ [] []
  | opens {t : Tree} {stores : List Store} {log : List (StoreCall × Served)} {path : String}
    {d : Document} (session : Session here t₀ t stores log) (cluster : Option String)
    (made : (t.perform (.makeDirectories path)).2 = .ok d)
    (leads : (t.perform (.makeDirectories path)).1.Leads path here) :
    Session here t₀ (t.perform (.makeDirectories path)).1 (.inDirectory path cluster :: stores) log
  | drops {t : Tree} {stores fewer : List Store} {log : List (StoreCall × Served)}
    (session : Session here t₀ t stores log) (sub : fewer.Sublist stores) :
    Session here t₀ t fewer log
  | calls {t : Tree} {stores : List Store} {log : List (StoreCall × Served)} {s : Store}
    (session : Session here t₀ t stores log) (isOpen : s ∈ stores) (mark : Nat) (c : StoreCall) :
    Session here t₀ (s.serve mark c t).tree stores (log ++ [(c, s.serve mark c t)])

/-- The stores are open on the directory, and its records are what is in memory. -/
structure Agrees (here : Location) (t : Tree) (stores : List Store) (m : Memory) : Prop where
  leads : ∀ s ∈ stores, ∃ path features, s.shelf = .directory path features ∧ t.Leads path here
  records_eq : t.records here = m.records
  readable : m.Readable

namespace Agrees
variable {here : Location} {t t' : Tree} {stores : List Store} {m : Memory}

theorem opens (h : Agrees here t stores m) {path : String} (cluster : Option String)
    (leads : (t.perform (.makeDirectories path)).1.Leads path here) :
    Agrees here (t.perform (.makeDirectories path)).1 (.inDirectory path cluster :: stores) m where
  leads s hs := by
    obtain rfl | hs := List.mem_cons.1 hs
    · exact ⟨path, _, rfl, leads⟩
    · obtain ⟨p, features, shelf, hp⟩ := h.leads s hs
      exact ⟨p, features, shelf, (Tree.becomes_makeDirectories t path here).directories.leads hp⟩
  records_eq := (Tree.becomes_makeDirectories t path here).records_eq.trans h.records_eq
  readable := h.readable

theorem drops (h : Agrees here t stores m) {fewer : List Store} (sub : fewer.Sublist stores) :
    Agrees here t fewer m :=
  ⟨fun s hs => h.leads s (sub.subset hs), h.records_eq, h.readable⟩

theorem calls (h : Agrees here t stores m) {s : Store} (isOpen : s ∈ stores) {mark : Nat}
    {c : StoreCall} (mild : ∀ e ∈ (s.serve mark c t).errors, e = .notFound)
    (readable : ∀ id data, c = .put id data → data.ReadsBack) :
    (s.serve mark c t).answer = (m.answer c).2 ∧
      Agrees here (s.serve mark c t).tree stores (m.answer c).1 := by
  obtain ⟨path, features, shelf, leads⟩ := h.leads s isOpen
  rw [Store.serve_of_directory shelf] at mild ⊢
  have begun : t.Leads (c.begin path mark).directory here ∧ (c.begin path mark).Prepared t here :=
    by cases c <;> exact ⟨leads, trivial⟩
  obtain ⟨keeps, answer, settled⟩ := serve_shared begun.1 begun.2 mild
  rw [h.records_eq] at answer settled
  refine ⟨answer.trans (h.readable.replied c path mark), fun s' hs' => ?_,
    settled.trans (h.readable.settled c path mark), h.readable.after readable⟩
  obtain ⟨p, features', shelf', hp⟩ := h.leads s' hs'
  exact ⟨p, features', shelf', keeps.leads hp⟩

end Agrees

namespace Session
variable {here : Location} {t₀ t : Tree} {stores : List Store} {log : List (StoreCall × Served)}

theorem agrees (session : Session here t₀ t stores log)
    (empty : ∀ n, t₀.find? (here ++ [n]) = none)
    (mild : ∀ a ∈ log, ∀ e ∈ a.2.errors, e = .notFound)
    (readable : ∀ a ∈ log, ∀ id data, a.1 = .put id data → data.ReadsBack) :
    log.map (·.2.answer) = Memory.empty.answers (log.map (·.1)) ∧
      Agrees here t stores (Memory.empty.after (log.map (·.1))) := by
  induction session with
  | start =>
    refine ⟨rfl, nofun, funext fun id => ?_, rfl, nofun⟩
    show t₀.held? here (recordName id) = none
    unfold Tree.held?
    rw [empty]
  | opens session cluster made leads ih =>
    obtain ⟨answers, agrees⟩ := ih mild readable
    exact ⟨answers, agrees.opens cluster leads⟩
  | drops session sub ih =>
    obtain ⟨answers, agrees⟩ := ih mild readable
    exact ⟨answers, agrees.drops sub⟩
  | @calls t stores log s session isOpen mark c ih =>
    obtain ⟨answers, agrees⟩ := ih (fun a ha => mild a (List.mem_append_left _ ha))
      fun a ha => readable a (List.mem_append_left _ ha)
    have last : (c, s.serve mark c t) ∈ log ++ [(c, s.serve mark c t)] := by simp
    obtain ⟨answer, agrees'⟩ := agrees.calls isOpen (mild _ last) (readable _ last)
    rw [List.map_append, List.map_append, answers, Memory.answers_append]
    refine ⟨?_, ?_⟩
    · rw [List.map_singleton, answer]
      rfl
    · rw [Memory.after, List.foldl_append]
      exact agrees'

end Session
end ServiceBus
