import ServiceBus.Proofs.Store.Entries
import ServiceBus.Proofs.Store.Records

/-!
# Calls on a shared directory in any order

In an `Interleaving` any number of calls are in progress on stores that share a directory. The disk
carries out their operations in any order, a write may leave a part of its content first, and any
call may stop for ever at any point. What is loaded is what the last renaming or removal for this
id has left, and nothing of what is on the way or was given up (`loaded_of_last`).
-/

namespace ServiceBus

/-- What can be told of the entries in a directory. -/
inductive Happening where
  | began (c : StoreCall)
  /-- A record has been put in place. -/
  | placed (id : String) (data : Json)
  | removed (id : String)
  | loaded (id : String) (r : StoreAnswer)

/-- What is left under an id: a value, or nothing. -/
def Happening.leaves? (id : String) : Happening → Option (Option Json)
  | .placed i data => if i = id then some (some data) else none
  | .removed i => if i = id then some none else none
  | .began _ | .loaded .. => none

/-- What happens when a call goes on or ends. -/
def DirectoryCall.happenings : DirectoryCall → Turn DirectoryCall StoreAnswer → List Happening
  | .renaming w, .waiting (.openingParent _) => [.placed w.id w.data]
  | .removing _ id, .ended (.ok _) => [.removed id]
  | .reading _ id, .ended r => [.loaded id r]
  | _, _ => []

/-- The call that is left in progress. -/
def Turn.rest {γ ρ : Type} : Turn γ ρ → List γ
  | .ended _ => []
  | .waiting c => [c]

/-- Calls in progress on the directory at `here`, the marks that are taken, and what has happened,
last first. -/
inductive Interleaving (here : Location) (t₀ : Tree) :
    Tree → List DirectoryCall → List Nat → List Happening → Prop
  | start : Interleaving here t₀ t₀ [] [] []
  | opens {t : Tree} {calls : List DirectoryCall} {marks : List Nat} {past : List Happening}
    (run : Interleaving here t₀ t calls marks past) (path : String) :
    Interleaving here t₀ (t.perform (.makeDirectories path)).1 calls marks past
  | begins {t : Tree} {calls : List DirectoryCall} {marks : List Nat} {past : List Happening}
    {path : String} {mark : Nat} (run : Interleaving here t₀ t calls marks past)
    (leads : t.Leads path here) (fresh : mark ∉ marks) (c : StoreCall) :
    Interleaving here t₀ t (c.begin path mark :: calls) (mark :: marks) (.began c :: past)
  | acts {t : Tree} {calls others : List DirectoryCall} {marks : List Nat} {past : List Happening}
    {c : DirectoryCall} (run : Interleaving here t₀ t calls marks past)
    (turn : calls.Perm (c :: others)) (mild : isMild (t.perform c.operation).2 = true) :
    Interleaving here t₀ (t.perform c.operation).1
      ((c.resume (t.perform c.operation).2).rest ++ others) marks
      (c.happenings (c.resume (t.perform c.operation).2) ++ past)
  /-- A write has left some content in its temporary file. -/
  | spills {t : Tree} {calls others : List DirectoryCall} {marks : List Nat}
    {past : List Happening} {w : Writing} (run : Interleaving here t₀ t calls marks past)
    (turn : calls.Perm (.filling w :: others)) (d : Document) :
    Interleaving here t₀ (t.perform (.write w.temporary d)).1 calls marks past
  /-- A call has stopped for ever. -/
  | crashes {t : Tree} {calls others : List DirectoryCall} {marks : List Nat}
    {past : List Happening} {c : DirectoryCall} (run : Interleaving here t₀ t calls marks past)
    (turn : calls.Perm (c :: others)) : Interleaving here t₀ t others marks past

/-! ### What the records are -/

/-- The records after all this, if they were `f` before. -/
def recorded (f : String → Option Document) (past : List Happening) (id : String) :
    Option Document :=
  match past.findSome? (Happening.leaves? id) with
  | some left => left.map fun data => Record.write ⟨Record.currentVersion, id, data⟩
  | none => f id

/-- What a happening leaves under one id, and under no other. -/
theorem recorded_cons (f : String → Option Document) (past : List Happening) {e : Happening}
    {id : String} {x : Option Json} (h : ∀ i, e.leaves? i = if id = i then some x else none) :
    recorded f (e :: past) = Function.update (recorded f past) id
      (x.map fun data => Record.write ⟨Record.currentVersion, id, data⟩) := by
  funext i
  rw [recorded, List.findSome?_cons, h i]
  by_cases own : id = i
  · subst own
    rw [if_pos rfl, Function.update_self]
  · rw [if_neg own, Function.update_of_ne (Ne.symm own)]
    rfl

/-- What has been loaded was there, and what has been put in place had been asked for. -/
def Vouched (f : String → Option Document) : List Happening → Prop
  | [] => True
  | .loaded i r :: past => r = DirectoryCall.told i (recorded f past i) ∧ Vouched f past
  | .placed i data :: past => .began (.put i data) ∈ past ∧ Vouched f past
  | .began _ :: past | .removed _ :: past => Vouched f past

theorem Vouched.of_append {f : String → Option Document} {later earlier : List Happening}
    (h : Vouched f (later ++ earlier)) : Vouched f earlier := by
  induction later with
  | nil => exact h
  | cons e later ih =>
    cases e with
    | began | removed => exact ih h
    | loaded | placed => exact ih h.2

theorem Vouched.began_of_placed {f : String → Option Document} {past : List Happening} {i : String}
    {data : Json} (h : Vouched f past) (placed : .placed i data ∈ past) :
    .began (.put i data) ∈ past := by
  induction past with
  | nil => cases placed
  | cons e past ih =>
    cases placed with
    | head => exact .tail _ h.1
    | tail _ placed =>
      have rest : Vouched f ([e] ++ past) := h
      exact .tail _ (ih rest.of_append placed)

theorem mem_of_leaves {past : List Happening} {i : String} {data : Json}
    (h : past.findSome? (Happening.leaves? i) = some (some data)) : .placed i data ∈ past := by
  obtain ⟨e, he, leaves⟩ := List.exists_of_findSome?_eq_some h
  cases e with
  | began | loaded => cases leaves
  | removed j => simp [Happening.leaves?] at leaves
  | placed j other =>
    obtain ⟨rfl, rfl⟩ : j = i ∧ other = data := by simpa [Happening.leaves?] using leaves
    exact he

/-! ### The calls in progress -/

namespace DirectoryCall
variable {t t' : Tree} {here : Location} {c c' : DirectoryCall} {calls others : List DirectoryCall}

/-- The mark of the call's temporary file. -/
def mark? (c : DirectoryCall) : Option Nat := c.writing?.map (·.mark)

theorem Prepared.congr (h : c.Prepared t here)
    (same : ∀ w, c.writing? = some w → t'.held? here (temporaryName w.id w.mark) =
      t.held? here (temporaryName w.id w.mark)) : c.Prepared t' here := by
  cases c with
  | filling w | syncing w => rw [Prepared, same w rfl]; exact h
  | creating | openingParent | syncingParent | reading | removing => trivial
  | discarding => exact h
  | _ w => rw [Prepared, same w rfl]; exact h

theorem mark?_ne (apart : (c :: others).filterMap mark? |>.Nodup) (hc : c' ∈ others)
    {w w' : Writing} (hw : c.writing? = some w) (hw' : c'.writing? = some w') :
    w.mark ≠ w'.mark := by
  have first : c.mark? = some w.mark := by rw [mark?, hw]; rfl
  have second : c'.mark? = some w'.mark := by rw [mark?, hw']; rfl
  rw [List.filterMap_cons_some first, List.nodup_cons] at apart
  intro e
  exact apart.1 (List.mem_filterMap.2 ⟨c', hc, e ▸ second⟩)

end DirectoryCall

/-- The calls in progress are on the directory, their temporary files are theirs alone and as they
have left them, and the records are what has been put in place and removed. -/
structure Consistent (here : Location) (f : String → Option Document) (t : Tree)
    (calls : List DirectoryCall) (marks : List Nat) (past : List Happening) : Prop where
  leads : ∀ c ∈ calls, t.Leads c.directory here
  prepared : ∀ c ∈ calls, c.Prepared t here
  apart : (calls.filterMap DirectoryCall.mark?).Nodup
  marks : ∀ m ∈ calls.filterMap DirectoryCall.mark?, m ∈ marks
  began : ∀ c ∈ calls, ∀ w, c.writing? = some w → .began (.put w.id w.data) ∈ past
  records_eq : t.records here = recorded f past
  vouched : Vouched f past

namespace DirectoryCall.Advances
variable {here : Location} {f : String → Option Document} {t t' : Tree} {c : DirectoryCall}
  {turn : Turn DirectoryCall StoreAnswer} {past : List Happening}

theorem recorded_eq (h : Advances here t c t' turn) (records : t.records here = recorded f past) :
    t'.records here = recorded f (c.happenings turn ++ past) := by
  rw [h.records_eq, records]
  cases h with
  | @renames w =>
    have placed (i : String) : (Happening.placed w.id w.data).leaves? i =
        if w.id = i then some (some w.data) else none := rfl
    exact (recorded_cons f past placed).symm
  | @removes _ id =>
    have removed (i : String) : (Happening.removed id).leaves? i =
        if id = i then some none else none := rfl
    exact (recorded_cons f past removed).symm
  | creates | fills | syncs | opens | ends | reads => rfl

theorem vouched (h : Advances here t c t' turn) (records : t.records here = recorded f past)
    (began : ∀ w, c.writing? = some w → .began (.put w.id w.data) ∈ past)
    (vouched : Vouched f past) : Vouched f (c.happenings turn ++ past) := by
  cases h with
  | renames => exact ⟨began _ rfl, vouched⟩
  | reads =>
    refine ⟨?_, vouched⟩
    rw [records]
    rfl
  | creates | fills | syncs | opens | ends | removes => exact vouched

end DirectoryCall.Advances

namespace Consistent
variable {here : Location} {f : String → Option Document} {t : Tree}
  {calls others : List DirectoryCall} {marks : List Nat} {past : List Happening} {c : DirectoryCall}

theorem perm (h : Consistent here f t calls marks past) (turn : calls.Perm others) :
    Consistent here f t others marks past where
  leads c hc := h.leads c (turn.symm.subset hc)
  prepared c hc := h.prepared c (turn.symm.subset hc)
  apart := (turn.filterMap _).nodup_iff.1 h.apart
  marks m hm := h.marks m ((turn.filterMap _).symm.subset hm)
  began c hc := h.began c (turn.symm.subset hc)
  records_eq := h.records_eq
  vouched := h.vouched

theorem crashes (h : Consistent here f t (c :: others) marks past) :
    Consistent here f t others marks past where
  leads c hc := h.leads c (.tail _ hc)
  prepared c hc := h.prepared c (.tail _ hc)
  apart := h.apart.sublist (List.Sublist.filterMap _ (List.sublist_cons_self _ _))
  marks m hm :=
    h.marks m (List.Sublist.subset (List.Sublist.filterMap _ (List.sublist_cons_self _ _)) hm)
  began c hc := h.began c (.tail _ hc)
  records_eq := h.records_eq
  vouched := h.vouched

theorem begins (h : Consistent here f t calls marks past) {path : String} {mark : Nat}
    (leads : t.Leads path here) (fresh : mark ∉ marks) (c : StoreCall) :
    Consistent here f t (c.begin path mark :: calls) (mark :: marks) (.began c :: past) where
  leads d hd := by
    obtain rfl | hd := List.mem_cons.1 hd
    · cases c <;> exact leads
    · exact h.leads d hd
  prepared d hd := by
    obtain rfl | hd := List.mem_cons.1 hd
    · cases c <;> trivial
    · exact h.prepared d hd
  apart := by
    cases c with
    | put id data =>
      refine List.nodup_cons.2 ⟨fun hm => fresh (h.marks mark hm), h.apart⟩
    | get | remove => exact h.apart
  marks m hm := by
    cases c with
    | put id data =>
      obtain rfl | hm := List.mem_cons.1 hm
      · exact List.mem_cons_self
      · exact .tail _ (h.marks m hm)
    | get | remove => exact .tail _ (h.marks m hm)
  began d hd w hw := by
    obtain rfl | hd := List.mem_cons.1 hd
    · cases c <;> cases hw
      exact List.mem_cons_self
    · exact .tail _ (h.began d hd w hw)
  records_eq := h.records_eq
  vouched := h.vouched

/-- The directories stay, and so do the temporary files of these calls. -/
theorem later (h : Consistent here f t calls marks past) {t' : Tree} {new : List Happening}
    (keeps : t.KeepsDirectories t')
    (same : ∀ c ∈ calls, ∀ w, c.writing? = some w → t'.held? here (temporaryName w.id w.mark) =
      t.held? here (temporaryName w.id w.mark))
    (records : t'.records here = recorded f (new ++ past)) (vouched : Vouched f (new ++ past)) :
    Consistent here f t' calls marks (new ++ past) where
  leads c hc := keeps.leads (h.leads c hc)
  prepared c hc := (h.prepared c hc).congr (same c hc)
  apart := h.apart
  marks := h.marks
  began c hc w hw := List.mem_append_right _ (h.began c hc w hw)
  records_eq := records
  vouched := vouched

theorem opens (h : Consistent here f t calls marks past) (path : String) :
    Consistent here f (t.perform (.makeDirectories path)).1 calls marks past := by
  have becomes := t.becomes_makeDirectories path here
  have later : Consistent here f (t.perform (.makeDirectories path)).1 calls marks ([] ++ past) :=
    h.later becomes.directories (fun _ _ _ _ => becomes.held?_eq _)
      (becomes.records_eq.trans h.records_eq) h.vouched
  exact later

/-- A call goes on with its temporary file. -/
theorem goes {past' : List Happening} {t' : Tree} {c' : DirectoryCall}
    (h : Consistent here f t (c :: others) marks past)
    (left : Consistent here f t' others marks (past' ++ past))
    (leads : t'.Leads c'.directory here) (prepared : c'.Prepared t' here)
    (writing : c'.writing? = c.writing?) :
    Consistent here f t' (c' :: others) marks (past' ++ past) := by
  have mark : c'.mark? = c.mark? := congrArg (Option.map _) writing
  have same : (c' :: others).filterMap DirectoryCall.mark? =
      (c :: others).filterMap DirectoryCall.mark? := by
    rw [List.filterMap_cons, List.filterMap_cons, mark]
  refine ⟨?_, ?_, same ▸ h.apart, same ▸ h.marks, ?_, left.records_eq, left.vouched⟩
  · exact List.forall_mem_cons.2 ⟨leads, left.leads⟩
  · exact List.forall_mem_cons.2 ⟨prepared, left.prepared⟩
  · refine List.forall_mem_cons.2 ⟨fun w hw => ?_, left.began⟩
    exact List.mem_append_right _ (h.began c List.mem_cons_self w (writing ▸ hw))

theorem acts (h : Consistent here f t (c :: others) marks past)
    (mild : isMild (t.perform c.operation).2 = true) :
    Consistent here f (t.perform c.operation).1
      ((c.resume (t.perform c.operation).2).rest ++ others) marks
      (c.happenings (c.resume (t.perform c.operation).2) ++ past) := by
  have leads := h.leads c List.mem_cons_self
  have advances := DirectoryCall.advances leads (h.prepared c List.mem_cons_self) mild
  generalize c.resume (t.perform c.operation).2 = turn at advances
  generalize (t.perform c.operation).1 = t' at advances
  have left : Consistent here f t' others marks (c.happenings turn ++ past) := by
    refine h.crashes.later advances.keeps (fun c' hc' w hw => ?_)
      (advances.recorded_eq h.records_eq)
      (advances.vouched h.records_eq (h.began c List.mem_cons_self) h.vouched)
    exact advances.held?_temporaryName fun v hv => DirectoryCall.mark?_ne h.apart hc' hv hw
  cases turn with
  | ended r => exact left
  | waiting c' =>
    exact h.goes left (advances.leads leads) advances.prepared advances.writing?_eq

/-- Whatever of its content a write has left in its temporary file, it goes on. -/
theorem spills {w : Writing} (h : Consistent here f t (.filling w :: others) marks past)
    (d : Document) :
    Consistent here f (t.perform (.write w.temporary d)).1 (.filling w :: others) marks past := by
  have leads := h.leads _ List.mem_cons_self
  cases answer : (t.perform (.write w.temporary d)).2 with
  | error e => rw [Tree.perform_of_error rfl answer]; exact h
  | ok r =>
    obtain ⟨-, becomes⟩ := leads.write (plainName_temporaryName w.id w.mark)
      (h.prepared _ List.mem_cons_self) (d := d)
      (show isMild (t.perform (.write w.temporary d)).2 = true by rw [answer]; rfl)
    replace becomes : t.Becomes here (Function.update (t.held? here) (temporaryName w.id w.mark)
      (some d)) (t.perform (.write w.temporary d)).1 := becomes
    generalize (t.perform (.write w.temporary d)).1 = t' at becomes
    have left : Consistent here f t' others marks ([] ++ past) := by
      refine h.crashes.later becomes.directories (fun c hc v hv => ?_) ?_ h.vouched
      · rw [becomes.held?_eq, Function.update_of_ne fun e =>
          DirectoryCall.mark?_ne h.apart hc rfl hv (temporaryName_injective e).2.symm]
      · rw [becomes.records_eq, Tree.update_temporaryName]
        exact h.records_eq
    refine h.goes left (becomes.directories.leads leads) ?_ rfl
    rw [DirectoryCall.Prepared, becomes.held?_eq, Function.update_self]
    exact Option.some_ne_none d

end Consistent

namespace Interleaving
variable {here : Location} {t₀ t : Tree} {calls : List DirectoryCall} {marks : List Nat}
  {past later earlier : List Happening} {i : String} {r : StoreAnswer}

theorem consistent (run : Interleaving here t₀ t calls marks past) :
    Consistent here (t₀.records here) t calls marks past := by
  induction run with
  | start => exact ⟨nofun, nofun, .nil, nofun, nofun, rfl, trivial⟩
  | opens run path ih => exact ih.opens path
  | begins run leads fresh c ih => exact ih.begins leads fresh c
  | acts run turn mild ih => exact (ih.perm turn).acts mild
  | spills run turn d ih => exact ((ih.perm turn).spills d).perm turn.symm
  | crashes run turn ih => exact (ih.perm turn).crashes

/-- Whoever loads an entry gets the value that was last put in place under its id, which somebody
has asked for, or learns that it was removed; before that, what was there from the beginning. -/
theorem loaded_of_last (run : Interleaving here t₀ t calls marks past)
    (readable : ∀ i data, .began (.put i data) ∈ past → data.ReadsBack)
    (split : past = later ++ .loaded i r :: earlier) :
    match earlier.findSome? (Happening.leaves? i) with
    | some (some data) => r = .ok (some data) ∧ .began (.put i data) ∈ earlier
    | some none => r = .error (.notFound i)
    | none => r = DirectoryCall.told i (t₀.records here i) := by
  have vouched := run.consistent.vouched
  rw [split] at vouched
  obtain ⟨answer, before⟩ := vouched.of_append
  rw [recorded] at answer
  cases left : earlier.findSome? (Happening.leaves? i) with
  | none => rwa [left] at answer
  | some value =>
    rw [left] at answer
    cases value with
    | none => exact answer
    | some data =>
      have began := before.began_of_placed (mem_of_leaves left)
      refine ⟨answer.trans (DirectoryCall.answer_write (readable i data ?_)), began⟩
      rw [split]
      exact List.mem_append_right _ (.tail _ began)

/-- Two writes of one entry are under way, and one of them stops in the middle of its file. -/
theorem loaded_of_last_crash : ∃ (t : Tree) (calls : List DirectoryCall) (marks : List Nat)
    (earlier : List Happening) (r : StoreAnswer), Interleaving [] .empty t calls marks
      (.loaded "x" r :: earlier) ∧ r = .ok (some .null) := by
  have initial : Interleaving [] .empty .empty [] [] [] := .start
  have leads : Tree.empty.Leads "/" [] ∧ Tree.empty.Leads "/." [] := ⟨⟨rfl, rfl⟩, ⟨rfl, rfl⟩⟩
  have began := initial.begins leads.1 (show 0 ∉ [] by decide) (.put "x" .null)
  have both := began.begins leads.2 (show 1 ∉ [0] by decide) (.put "x" (.bool true))
  have created := (both.acts (.swap _ _ _) rfl).acts (.swap _ _ _) rfl
  have alone := (created.spills (.refl _) [some '1']).crashes (.refl _)
  have placed := ((alone.acts (.refl _) rfl).acts (.refl _) rfl).acts (.refl _) rfl
  have asked := placed.begins (show Tree.Leads _ "/." [] from ⟨rfl, rfl⟩)
    (show 2 ∉ [1, 0] by decide) (.get "x")
  have run : Interleaving [] .empty _ _ _
      [.loaded "x" (DirectoryCall.answer "x" (Record.write ⟨Record.currentVersion, "x", .null⟩)),
        .began (.get "x"), .placed "x" .null, .began (.put "x" (.bool true)),
        .began (.put "x" .null)] := asked.acts (.refl _) rfl
  have loaded := run.loaded_of_last (fun i data h => ?_) (show _ = [] ++ _ :: _ from rfl)
  · exact ⟨_, _, _, _, _, run, loaded.1⟩
  · simp only [List.mem_cons, List.not_mem_nil, reduceCtorEq, Happening.began.injEq,
      StoreCall.put.injEq, false_or, or_false] at h
    rcases h with ⟨-, rfl⟩ | ⟨-, rfl⟩ <;> exact Json.readsBack_of_isWhole rfl rfl (by decide)

end Interleaving
end ServiceBus
