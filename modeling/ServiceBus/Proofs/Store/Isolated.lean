import ServiceBus.Proofs.Store.Depot

/-!
# Stores of different names

A factory keeps its stores by their names and makes their directories of them. Names whose paths lead
to different places are `StoreFactory.Apart`. Two runs, one of them without the calls on one store,
leave depots that differ only in this store and in what is directly inside of its directory
(`Depot.Twin`), so a store whose name is apart answers the same in both
(`Sound.answers_of_apart`). Names that are different but not apart have one directory between them
(`Sound.call_get_of_not_apart`), as `a` and `./a` have.
-/

namespace ServiceBus

/-! ### Names -/

namespace StoreFactory
variable {f : StoreFactory} {m n : String}

/-- The names are different, and so are the places of their stores. -/
structure Apart (f : StoreFactory) (m n : String) : Prop where
  ne : m ≠ n
  destination_ne : ∀ p q, (f.store m).directory? = some p → (f.store n).directory? = some q →
    Path.destination p ≠ Path.destination q

theorem directory?_store (f : StoreFactory) (name : String) : (f.store name).directory? =
    if f.backend = .memory then none else some (Path.join f.directory name) := by
  unfold store
  cases f.backend <;> rfl

theorem directory?_eq_none_iff (name : String) :
    (f.store name).directory? = none ↔ f.backend = .memory := by
  rw [directory?_store]
  split <;> simp [*]

theorem apart_iff_of_memory (h : f.backend = .memory) : f.Apart m n ↔ m ≠ n := by
  refine ⟨Apart.ne, fun ne => ⟨ne, fun p q hp => ?_⟩⟩
  rw [directory?_store, if_pos h] at hp
  cases hp

theorem apart_iff_of_directory (h : f.backend ≠ .memory) : f.Apart m n ↔
    Path.destination (Path.join f.directory m) ≠ Path.destination (Path.join f.directory n) := by
  constructor
  · intro apart
    exact apart.destination_ne _ _ (by rw [directory?_store, if_neg h])
      (by rw [directory?_store, if_neg h])
  · refine fun ne => ⟨fun e => ne (e ▸ rfl), fun p q hp hq => ?_⟩
    rw [directory?_store, if_neg h] at hp hq
    cases hp
    cases hq
    exact ne

/-- Different plain names are apart, whatever the factory. -/
theorem apart_of_plain (f : StoreFactory) (hm : PlainName m) (hn : PlainName n) (ne : m ≠ n) :
    f.Apart m n := by
  by_cases memory : f.backend = .memory
  · exact (apart_iff_of_memory memory).2 ne
  · rw [apart_iff_of_directory memory, Path.destination_join _ hm, Path.destination_join _ hn]
    simpa using ne

end StoreFactory

/-! ### Leaving out the calls on one store -/

def Use.isCall (j : Nat) : Use → Bool
  | .opens _ => false
  | .calls n _ _ => decide (n = j)

/-- The answer of a store. -/
def answerOf (i : Nat) : Use × Reply → Option StoreAnswer
  | (.calls n _ _, .answered a) => if n = i then some a else none
  | _ => none

namespace Depot

/-- What is asked but calls on one store. -/
def without (j : Nat) (us : List Use) : List Use := us.filter fun u => !u.isCall j

/-- No name has been refused. -/
def Accepts (d : Depot) (us : List Use) : Prop :=
  ∀ x ∈ d.replies us, ∀ e, x.2 ≠ .opened (.error e)

/-- The store of a name has been handed out by this number. -/
def Hands (d : Depot) (us : List Use) (name : String) (n : Nat) : Prop :=
  (.opens name, .opened (.ok n)) ∈ d.replies us

/-- The answers of one store, first one first. -/
def answers (d : Depot) (us : List Use) (i : Nat) : List StoreAnswer :=
  (d.replies us).filterMap (answerOf i)

/-- The depots differ at most in the store `j` and in the files directly inside of one directory. -/
structure Twin (j : Nat) (gone : Location) (d d' : Depot) : Prop where
  factory_eq : d'.factory = d.factory
  length_eq : d'.stores.length = d.stores.length
  getElem?_eq : ∀ n, n ≠ j → d'.stores[n]? = d.stores[n]?
  files : d.files.Alike gone d'.files

variable {d d' d'' : Depot} {j n i mark : Nat} {gone : Location} {name : String} {c : StoreCall}
  {us : List Use}

namespace Twin

theorem refl (j : Nat) (gone : Location) (d : Depot) : Twin j gone d d :=
  ⟨rfl, rfl, fun _ _ => rfl, .refl gone d.files⟩

theorem symm (h : Twin j gone d d') : Twin j gone d' d :=
  ⟨h.factory_eq.symm, h.length_eq.symm, fun n ne => (h.getElem?_eq n ne).symm, h.files.symm⟩

theorem trans (h : Twin j gone d d') (k : Twin j gone d' d'') : Twin j gone d d'' :=
  ⟨k.factory_eq.trans h.factory_eq, k.length_eq.trans h.length_eq,
    fun n ne => (k.getElem?_eq n ne).trans (h.getElem?_eq n ne), h.files.trans k.files⟩

theorem store_eq (h : Twin j gone d d') (ne : n ≠ j) : d'.store n = d.store n := by
  rw [store, store, h.getElem?_eq n ne]

end Twin

/-- A call inside of the directory changes nothing else. -/
theorem twin_call_of_directory {path : String} {features : List StoreFeature} (j : Nat)
    (h : (d.store n).shelf = .directory path features) (inside : Path.destination path = gone) :
    Twin j gone d (d.call n mark c).1 := by
  rw [call_of_directory h]
  have alike := DirectoryCall.alike_serve (c.begin path mark) d.files
  rw [DirectoryCall.directory_begin, inside] at alike
  exact ⟨rfl, rfl, fun _ _ => rfl, alike⟩

theorem twin_call (inside : ∀ p, (d.store j).directory? = some p → Path.destination p = gone) :
    Twin j gone d (d.call j mark c).1 := by
  obtain ⟨m, shelf, -⟩ | ⟨p, features, shelf, hp⟩ := (d.store j).shelf_cases
  · rw [call_of_memory shelf]
    exact ⟨rfl, List.length_set, fun n ne => List.getElem?_set_ne ne.symm, .refl gone d.files⟩
  · exact twin_call_of_directory j shelf (inside p hp)

namespace Twin

/-- A store elsewhere answers the same. -/
theorem call (h : Twin j gone d d') (sound : d.Sound) (ne : n ≠ j)
    (outside : ∀ p, (d.store n).directory? = some p → Path.destination p ≠ gone) :
    (d'.call n mark c).2 = (d.call n mark c).2 ∧
      Twin j gone (d.call n mark c).1 (d'.call n mark c).1 := by
  have same := h.store_eq ne
  obtain ⟨m, shelf, -⟩ | ⟨p, features, shelf, hp⟩ := (d.store n).shelf_cases
  · rw [call_of_memory shelf, call_of_memory (same ▸ shelf), same]
    refine ⟨rfl, h.factory_eq, ?_, fun k hk => ?_, h.files⟩
    · rw [List.length_set, List.length_set, h.length_eq]
    · rw [List.getElem?_set, List.getElem?_set, h.length_eq, h.getElem?_eq k hk]
  · rw [call_of_directory shelf, call_of_directory (same ▸ shelf)]
    have directory := DirectoryCall.directory_begin c p mark
    obtain ⟨answer, alike⟩ := h.files.serve (c := c.begin p mark)
      (directory.symm ▸ sound.reaches n p hp) (directory.symm ▸ outside p hp)
    exact ⟨answer, h.factory_eq, h.length_eq, h.getElem?_eq, alike⟩

theorem call_of_ne (h : Twin j gone d d') (sound : d.Sound) (ne : n ≠ j) :
    Twin j gone (d.call n mark c).1 (d'.call n mark c).1 := by
  by_cases inside : ∃ p, (d.store n).directory? = some p ∧ Path.destination p = gone
  · obtain ⟨p, hp, inside⟩ := inside
    obtain ⟨m, -, none⟩ | ⟨q, features, shelf, hq⟩ := (d.store n).shelf_cases
    · rw [none] at hp
      cases hp
    · cases hp.symm.trans hq
      have shelf' : (d'.store n).shelf = .directory p features := h.store_eq ne ▸ shelf
      exact (twin_call_of_directory j shelf inside).symm.trans
        (h.trans (twin_call_of_directory j shelf' inside))
  · exact (h.call sound ne fun p hp e => inside ⟨p, hp, e⟩).2

theorem openStore (h : Twin j gone d d') {k k' : Nat} (ok : (d.openStore name).2 = .ok k)
    (ok' : (d'.openStore name).2 = .ok k') :
    k' = k ∧ Twin j gone (d.openStore name).1 (d'.openStore name).1 := by
  have opens := d.opens name
  have opens' := d'.opens name
  generalize d.openStore name = r at ok opens ⊢
  generalize d'.openStore name = r' at ok' opens' ⊢
  cases opens with
  | fails => cases ok
  | keeps kept =>
    cases opens' with
    | fails => cases ok'
    | keeps kept' =>
      cases ok
      cases ok'
      rw [h.factory_eq, kept] at kept'
      cases kept'
      exact ⟨rfl, h⟩
    | makes new =>
      rw [h.factory_eq, kept] at new
      cases new
  | makes new made =>
    cases opens' with
    | fails => cases ok'
    | keeps kept =>
      rw [h.factory_eq, new] at kept
      cases kept
    | makes _ made' =>
      rw [h.factory_eq] at made'
      have alike := Store.alike_make h.files (s := d.factory.store name) (by rw [made])
        (by rw [made'])
      rw [made, made'] at alike
      cases ok
      cases ok'
      refine ⟨h.length_eq, ?_, ?_, fun n ne => ?_, alike⟩
      · simp only [h.factory_eq, h.length_eq]
      · simp only [List.length_append, h.length_eq, h.factory_eq, List.length_singleton]
      · simp only [List.getElem?_append, h.length_eq, h.getElem?_eq n ne, h.factory_eq]

end Twin

/-! ### Runs -/

theorem accepts_cons {u : Use} : d.Accepts (u :: us) ↔
    (∀ e, (d.step u).2 ≠ .opened (.error e)) ∧ (d.step u).1.Accepts us := by
  simp only [Accepts, replies, List.forall_mem_cons]

theorem hands_cons {u : Use} : d.Hands (u :: us) name n ↔
    u = .opens name ∧ (d.step u).2 = .opened (.ok n) ∨ (d.step u).1.Hands us name n := by
  simp only [Hands, replies, List.mem_cons, Prod.mk.injEq, eq_comm]

theorem answers_cons (d : Depot) (u : Use) (us : List Use) (i : Nat) : d.answers (u :: us) i =
    (answerOf i (u, (d.step u).2)).toList ++ (d.step u).1.answers us i := by
  rw [answers, replies, List.filterMap_cons]
  cases answerOf i (u, (d.step u).2) <;> rfl

/-- The store of a name that has been handed out is the one that the factory keeps. -/
theorem get?_of_hands (h : d.Hands us name n) :
    (d.after us).factory.stores.get? name = some n := by
  induction us generalizing d with
  | nil => cases h
  | cons u us ih =>
    obtain ⟨rfl, opened⟩ | later := hands_cons.1 h
    · injection opened with opened
      exact get?_after (d := (d.openStore name).1) (get?_openStore opened)
    · exact ih later

theorem Sound.directory?_of_hands (h : d.Sound) (hands : d.Hands us name n) :
    ((d.after us).store n).directory? = (d.factory.store name).directory? := by
  rw [(h.after us).directory?_eq name n (get?_of_hands hands), store_after]

namespace Twin
variable {u : Use}

/-- What is not a call on `j` goes the same way in both. -/
theorem step (h : Twin j gone d d') (sound : d.Sound) (other : u.isCall j = false)
    (outside : ∀ p, (d.store i).directory? = some p → Path.destination p ≠ gone)
    (accepted : ∀ e, (d.step u).2 ≠ .opened (.error e))
    (accepted' : ∀ e, (d'.step u).2 ≠ .opened (.error e)) :
    Twin j gone (d.step u).1 (d'.step u).1 ∧
      answerOf i (u, (d'.step u).2) = answerOf i (u, (d.step u).2) ∧
      ∀ r, (d.step u).2 = .opened r → (d'.step u).2 = .opened r := by
  cases u with
  | opens name =>
    cases ok : (d.openStore name).2 with
    | error e => exact absurd (congrArg Reply.opened ok) (accepted e)
    | ok k =>
      cases ok' : (d'.openStore name).2 with
      | error e => exact absurd (congrArg Reply.opened ok') (accepted' e)
      | ok k' =>
        obtain ⟨rfl, twin⟩ := h.openStore ok ok'
        refine ⟨twin, rfl, fun r hr => ?_⟩
        have same : (d'.openStore name).2 = (d.openStore name).2 := ok'.trans ok.symm
        exact (congrArg Reply.opened same).trans hr
  | calls n mark c =>
    have ne : n ≠ j := of_decide_eq_false other
    refine ⟨h.call_of_ne sound ne, ?_, fun r hr => by cases hr⟩
    by_cases e : n = i
    · subst e
      exact congrArg (fun a => answerOf n (.calls n mark c, .answered a))
        (h.call sound ne outside).1
    · exact (if_neg e).trans (if_neg e).symm

/-- A call on `j` makes no other difference. -/
theorem step_left (h : Twin j gone d d') (own : u.isCall j = true)
    (inside : ∀ p, (d.store j).directory? = some p → Path.destination p = gone) :
    Twin j gone (d.step u).1 d' := by
  cases u with
  | opens => cases own
  | calls n mark c =>
    obtain rfl : n = j := of_decide_eq_true own
    exact (twin_call inside).symm.trans h

theorem answers (h : Twin j gone d d') (sound : d.Sound) (ne : i ≠ j)
    (inside : ∀ p, ((d.after us).store j).directory? = some p → Path.destination p = gone)
    (outside : ∀ p, ((d.after us).store i).directory? = some p → Path.destination p ≠ gone)
    (accepts : d.Accepts us) (accepts' : d'.Accepts (without j us)) :
    d'.answers (without j us) i = d.answers us i ∧
      ∀ name n, d.Hands us name n → d'.Hands (without j us) name n := by
  induction us generalizing d d' with
  | nil => exact ⟨rfl, fun _ _ => id⟩
  | cons u us ih =>
    obtain ⟨accepted, accepts⟩ := accepts_cons.1 accepts
    have rest {d'} (twin : Twin j gone (d.step u).1 d') := ih twin (sound.step u) inside outside
      accepts
    rw [answers_cons]
    cases own : u.isCall j with
    | true =>
      have left : without j (u :: us) = without j us := by simp [without, own]
      have none : answerOf i (u, (d.step u).2) = none := by
        cases u with
        | opens => rfl
        | calls n mark c => exact if_neg fun e : n = i => ne (e ▸ of_decide_eq_true own)
      rw [left] at accepts' ⊢
      obtain ⟨answers, hands⟩ :=
        rest (h.step_left own fun p hp => inside p (directory?_after hp)) accepts'
      rw [none]
      refine ⟨answers, fun name n handed => hands name n ?_⟩
      obtain ⟨rfl, -⟩ | later := hands_cons.1 handed
      · cases own
      · exact later
    | false =>
      have stays : without j (u :: us) = u :: without j us := by simp [without, own]
      rw [stays] at accepts' ⊢
      obtain ⟨accepted', accepts'⟩ := accepts_cons.1 accepts'
      obtain ⟨twin, answer, opened⟩ := h.step sound own
        (fun p hp => outside p (directory?_after hp)) accepted accepted'
      obtain ⟨answers, hands⟩ := rest twin accepts'
      rw [answers_cons, answer, answers]
      refine ⟨rfl, fun name n handed => hands_cons.2 ?_⟩
      exact (hands_cons.1 handed).imp (fun now => ⟨now.1, opened _ now.2⟩) (hands name n)

end Twin

/-! ### Loading -/

theorem call_get_of_directory {path : String} (h : (d.store n).directory? = some path) (mark : Nat)
    (id : String) : (d.call n mark (.get id)).2 =
      DirectoryCall.loaded id (d.files.read (filePath path (recordName id))) := by
  obtain ⟨m, -, none⟩ | ⟨p, features, shelf, hp⟩ := (d.store n).shelf_cases
  · rw [none] at h
    cases h
  · cases h.symm.trans hp
    exact Store.answer_get shelf mark id d.files

theorem call_get_of_mark (d : Depot) (n mark mark' : Nat) (id : String) :
    (d.call n mark (.get id)).2 = (d.call n mark' (.get id)).2 := by
  obtain ⟨m, shelf, -⟩ | ⟨p, features, -, hp⟩ := (d.store n).shelf_cases
  · rw [call_of_memory shelf, call_of_memory shelf]
  · rw [call_get_of_directory hp, call_get_of_directory hp]

/-- Stores whose directories are one place load the same. -/
theorem Sound.call_get_eq (h : d.Sound) {p q id : String} (hp : (d.store n).directory? = some p)
    (hq : (d.store i).directory? = some q) (same : Path.destination p = Path.destination q)
    (fits : Tree.Fits p (recordName id)) (fits' : Tree.Fits q (recordName id)) (mark mark' : Nat) :
    (d.call n mark (.get id)).2 = (d.call i mark' (.get id)).2 := by
  have located := (h.reaches n p hp).locate_of_fits (plainName_recordName id) fits
  have located' := (h.reaches i q hq).locate_of_fits (plainName_recordName id) fits'
  rw [call_get_of_directory hp, call_get_of_directory hq, Tree.read, Tree.read, located, located',
    same]

/-! ### Names and their stores -/

namespace Sound
variable {one other : String} (h : d.Sound) (hj : d.Hands us one j) (hi : d.Hands us other i)
include h hj hi

theorem eq_iff_of_hands : j = i ↔ one = other := by
  have kept := get?_of_hands hj
  have kept' := get?_of_hands hi
  constructor
  · rintro rfl
    exact (h.after us).distinct one other j kept kept'
  · rintro rfl
    exact Option.some_inj.1 (kept.symm.trans kept')

/-- One store answers as if nobody had called the other one. -/
theorem answers_of_apart (apart : d.factory.Apart one other) (accepts : d.Accepts us)
    (accepts' : d.Accepts (without j us)) :
    d.Hands (without j us) other i ∧ d.answers (without j us) i = d.answers us i := by
  have ne : i ≠ j := fun e => apart.ne ((h.eq_iff_of_hands hj hi).1 e.symm)
  have place := h.directory?_of_hands hj
  have place' := h.directory?_of_hands hi
  -- a store in memory is nowhere, so that any place will do
  obtain ⟨gone, inside, outside⟩ : ∃ gone,
      (∀ p, ((d.after us).store j).directory? = some p → Path.destination p = gone) ∧
      ∀ q, ((d.after us).store i).directory? = some q → Path.destination q ≠ gone := by
    cases hp : (d.factory.store one).directory? with
    | some p =>
      refine ⟨Path.destination p, fun p' hp' => ?_, fun q hq => ?_⟩
      · rw [place, hp] at hp'
        cases hp'
        rfl
      · exact (apart.destination_ne p q hp (place'.symm.trans hq)).symm
    | none =>
      have hq := (StoreFactory.directory?_eq_none_iff other).2
        ((StoreFactory.directory?_eq_none_iff one).1 hp)
      rw [place, place', hp, hq]
      exact ⟨[], nofun, nofun⟩
  obtain ⟨answers, hands⟩ := (Twin.refl j gone d).answers h ne inside outside accepts accepts'
  exact ⟨hands other i hi, answers⟩

/-- What one store loads the other one loads. -/
theorem call_get_of_not_apart (near : ¬ d.factory.Apart one other) {id : String}
    (fits : ∀ p, (d.factory.store one).directory? = some p → Tree.Fits p (recordName id))
    (fits' : ∀ q, (d.factory.store other).directory? = some q → Tree.Fits q (recordName id))
    (mark mark' : Nat) :
    ((d.after us).call j mark (.get id)).2 = ((d.after us).call i mark' (.get id)).2 := by
  by_cases e : one = other
  · rw [(h.eq_iff_of_hands hj hi).2 e]
    exact call_get_of_mark _ i mark mark' id
  · obtain ⟨p, q, hp, hq, same⟩ : ∃ p q, (d.factory.store one).directory? = some p ∧
        (d.factory.store other).directory? = some q ∧
        Path.destination p = Path.destination q := by
      by_contra none
      exact near ⟨e, fun p q hp hq same => none ⟨p, q, hp, hq, same⟩⟩
    exact (h.after us).call_get_eq ((h.directory?_of_hands hj).trans hp)
      ((h.directory?_of_hands hi).trans hq) same (fits p hp) (fits' q hq) mark mark'

end Sound

/-- What two names of a factory have to do with each other; `j` and `i` are their stores. -/
structure Isolated (d : Depot) (us : List Use) (one other : String) (j i : Nat) : Prop where
  /-- A name that is opened again has the store that it had, and no other name has it. -/
  store_eq_iff : j = i ↔ one = other
  /-- Apart, one store answers as if nobody had called the other one. -/
  apart : d.factory.Apart one other → d.Accepts us → d.Accepts (without j us) →
    d.Hands (without j us) other i ∧ d.answers (without j us) i = d.answers us i
  /-- Otherwise, what one store loads the other one loads. -/
  shared : ¬ d.factory.Apart one other → ∀ (id : String) (mark mark' : Nat),
    (∀ p, (d.factory.store one).directory? = some p → Tree.Fits p (recordName id)) →
    (∀ q, (d.factory.store other).directory? = some q → Tree.Fits q (recordName id)) →
    ((d.after us).call j mark (.get id)).2 = ((d.after us).call i mark' (.get id)).2

/-- Whatever is asked of a new factory and its stores, in whatever order: stores whose names are apart
are isolated from each other, and the stores of other names are one. -/
theorem isolated_of_hands (backend : Backend) (directory node : String) (files : Tree)
    (us : List Use) {one other : String} {j i : Nat}
    (hj : (fresh backend directory node files).Hands us one j)
    (hi : (fresh backend directory node files).Hands us other i) :
    (fresh backend directory node files).Isolated us one other j i := by
  have sound := sound_fresh backend directory node files
  refine ⟨sound.eq_iff_of_hands hj hi, sound.answers_of_apart hj hi, ?_⟩
  exact fun near id mark mark' fits fits' =>
    sound.call_get_of_not_apart hj hi near fits fits' mark mark'

/-! ### Two names in a file system -/

theorem openStore_of_walk {path : String} {parts : List String} {here there : Location}
    {files : Tree} (new : d.factory.stores.get? name = none)
    (directory : (d.factory.store name).directory? = some path)
    (parted : Tree.partsOf path = .ok parts) (walked : d.files.walk [] parts = .ok here)
    (ensured : d.files.ensure here = (files, .ok there)) :
    d.openStore name = (⟨{ d.factory with
      stores := d.factory.stores.insert name d.stores.length },
      d.stores ++ [d.factory.store name], files⟩, .ok d.stores.length) := by
  have made : (d.factory.store name).make d.files = (files, .ok ()) := by
    rw [Store.make_of_directory directory, Tree.perform, Tree.makeDirectories, parted]
    simp only [Tree.ensureAll, walked, ensured]
    rfl
  simp only [openStore, new, made, StoreFactory.keep, Option.getD_none]

theorem accepts_calls : d.Accepts (.calls n mark c :: us) ↔ (d.call n mark c).1.Accepts us :=
  accepts_cons.trans (and_iff_right nofun)

/-- Two names are opened first. -/
theorem opened_two {one other : String} (first : (d.openStore one).2 = .ok j)
    (second : (d.openStore one).1.openStore other = (d', .ok i)) (us : List Use) :
    (d'.Accepts us → d.Accepts (.opens one :: .opens other :: us)) ∧
    d.Hands (.opens one :: .opens other :: us) one j ∧
    d.Hands (.opens one :: .opens other :: us) other i ∧
    ∀ k, d.answers (.opens one :: .opens other :: us) k = d'.answers us k := by
  have step₁ : d.step (.opens one) = ((d.openStore one).1, .opened (.ok j)) := by
    rw [step, first]
  have step₂ : (d.openStore one).1.step (.opens other) = (d', .opened (.ok i)) := by
    rw [step, second]
  simp only [accepts_cons, hands_cons, answers_cons, step₁, step₂]
  exact ⟨fun accepts => ⟨nofun, nofun, accepts⟩, .inl ⟨trivial, trivial⟩,
    .inr (.inl ⟨trivial, trivial⟩), fun k => rfl⟩

/-- An entry is put into the first store and asked for in the second one. -/
def lent : List Use := [.calls 0 0 (.put "k" (.nat 1)), .calls 1 1 (.get "k")]

theorem accepts_lent (d : Depot) : d.Accepts lent ∧ d.Accepts (without 0 lent) :=
  ⟨accepts_calls.2 (accepts_calls.2 nofun), accepts_calls.2 nofun⟩

def bare : Depot := fresh .file "/" "" .empty

/-- Both names have been opened. -/
def both (other : String) (files : Tree) : Depot :=
  ⟨⟨.file, "/", "", (Table.empty.insert "a" 0).insert other 1⟩,
    [.inDirectory "/a" none, .inDirectory (Path.join "/" other) none], files⟩

theorem openStore_first : bare.openStore "a" = (⟨⟨.file, "/", "", Table.empty.insert "a" 0⟩,
    [.inDirectory "/a" none], Tree.empty.insert ["a"] .directory⟩, .ok 0) :=
  openStore_of_walk rfl rfl rfl rfl rfl

theorem openStore_other : (bare.openStore "a").1.openStore "b" =
    (both "b" ((Tree.empty.insert ["a"] .directory).insert ["b"] .directory), .ok 1) := by
  rw [openStore_first]
  exact openStore_of_walk rfl rfl rfl rfl rfl

theorem openStore_spelled : (bare.openStore "a").1.openStore "./a" =
    (both "./a" (Tree.empty.insert ["a"] .directory), .ok 1) := by
  rw [openStore_first]
  exact openStore_of_walk rfl rfl rfl rfl rfl

theorem stored_spelled :
    ((both "./a" (Tree.empty.insert ["a"] .directory)).call 0 0 (.put "k" (.nat 1))).2 =
      .ok none := by
  show ((Store.inDirectory "/a" none).serve 0 _ (Tree.empty.insert ["a"] .directory)).answer = _
  rw [Store.serve_of_directory rfl, StoreCall.begin]
  refine DirectoryCall.answer_of_waiting rfl ?_
  refine DirectoryCall.answer_of_waiting rfl ?_
  refine DirectoryCall.answer_of_waiting rfl ?_
  refine DirectoryCall.answer_of_waiting rfl ?_
  refine DirectoryCall.answer_of_waiting rfl ?_
  exact DirectoryCall.answer_of_ended rfl

theorem sound_spelled : (both "./a" (Tree.empty.insert ["a"] .directory)).Sound := by
  have sound := ((sound_fresh .file "/" "" .empty).step (.opens "a")).step (.opens "./a")
  have opened : ((bare.step (.opens "a")).1.step (.opens "./a")).1 =
      both "./a" (Tree.empty.insert ["a"] .directory) := congrArg Prod.fst openStore_spelled
  rw [← opened]
  exact sound

/-- The second store has got what was put into the first one. -/
theorem answers_spelled :
    (both "./a" (Tree.empty.insert ["a"] .directory)).answers lent 1 = [.ok (some (.nat 1))] := by
  have sound := sound_spelled.call 0 0 (.put "k" (.nat 1))
  have kept := Store.record?_of_stored (s := .inDirectory "/a" none) rfl stored_spelled
  have same := sound.call_get_eq (n := 0) (i := 1) (p := "/a") (q := "/./a") rfl rfl rfl
    (show Tree.Fits "/a" (recordName "k") from ⟨rfl, by decide⟩) ⟨rfl, by decide⟩ 1 1
  show [(((both _ _).call 0 0 (.put "k" (.nat 1))).1.call 1 1 (.get "k")).2] = _
  rw [← same, call_get_of_directory rfl]
  refine congrArg (fun r => [DirectoryCall.loaded "k" r]) (Tree.content?_eq_some_iff_read.1 kept)
    |>.trans ?_
  rw [DirectoryCall.loaded, DirectoryCall.answer_write_of_isWhole rfl rfl, if_pos (by decide)]

/-- Names that are spelled differently can lead to one directory. -/
theorem not_isolated_spelled : ¬ ∀ (backend : Backend) (directory node : String) (files : Tree)
    (us : List Use) (one other : String) (j i : Nat),
    (fresh backend directory node files).Hands us one j →
    (fresh backend directory node files).Hands us other i → one ≠ other →
    (fresh backend directory node files).Accepts us →
    (fresh backend directory node files).Accepts (without j us) →
    (fresh backend directory node files).answers (without j us) i =
      (fresh backend directory node files).answers us i := by
  intro claimed
  have first : (bare.openStore "a").2 = .ok 0 := congrArg Prod.snd openStore_first
  obtain ⟨accepts, hands, hands', answers⟩ := opened_two first openStore_spelled lent
  obtain ⟨accepts', -, -, answers'⟩ := opened_two first openStore_spelled (without 0 lent)
  have same := claimed .file "/" "" .empty (.opens "a" :: .opens "./a" :: lent) "a" "./a" 0 1 hands
    hands' (by decide) (accepts (accepts_lent _).1) (accepts' (accepts_lent _).2)
  have alone : (both "./a" (Tree.empty.insert ["a"] .directory)).answers (without 0 lent) 1 =
      [.error (.notFound "k")] := by
    show [((both _ _).call 1 1 (.get "k")).2] = _
    rw [call_get_of_directory rfl]
    rfl
  have missed := (answers' 1).trans alone
  have found := (answers 1).trans answers_spelled
  cases (missed.symm.trans same).trans found

/-- Plain names are apart: what has been put into one store is not found in the other. -/
theorem isolated_of_hands_plain :
    bare.Hands (.opens "a" :: .opens "b" :: lent) "a" 0 ∧
    bare.Hands (.opens "a" :: .opens "b" :: lent) "b" 1 ∧
    bare.Isolated (.opens "a" :: .opens "b" :: lent) "a" "b" 0 1 ∧
    bare.answers (.opens "a" :: .opens "b" :: lent) 1 = [.error (.notFound "k")] := by
  have first : (bare.openStore "a").2 = .ok 0 := congrArg Prod.snd openStore_first
  obtain ⟨accepts, hands, hands', -⟩ := opened_two first openStore_other lent
  obtain ⟨accepts', -, -, answers'⟩ := opened_two first openStore_other (without 0 lent)
  have isolated := isolated_of_hands .file "/" "" .empty _ hands hands'
  have apart : bare.factory.Apart "a" "b" := StoreFactory.apart_of_plain _
    ⟨by decide, by decide, by decide, by decide⟩ ⟨by decide, by decide, by decide, by decide⟩
    (by decide)
  obtain ⟨-, same⟩ := isolated.apart apart (accepts (accepts_lent _).1)
    (accepts' (accepts_lent _).2)
  refine ⟨hands, hands', isolated, same.symm.trans ((answers' 1).trans ?_)⟩
  show [((both _ _).call 1 1 (.get "k")).2] = _
  rw [call_get_of_directory rfl]
  rfl

end Depot
end ServiceBus
