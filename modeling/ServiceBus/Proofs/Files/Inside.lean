import Mathlib.Logic.Function.Basic
import ServiceBus.Proofs.Files.Tree

/-!
# The files directly inside of a directory

Several paths can lead to one directory (`Tree.Leads`). What its files hold by their names,
`Tree.held? t here`, is the same along each of these paths. An operation along one of them changes
this map at the names it is about (`Tree.Becomes`), if the disk reports no error but that something
is not there (`isMild`).
-/

namespace ServiceBus

/-- Whether there is no error but that something is not there. -/
def isMild {α : Type} : Except DiskError α → Bool
  | .error e => e = .notFound
  | .ok _ => true

theorem isMild_of_bind {α β : Type} {x : Except DiskError α} {f : α → Except DiskError β}
    (h : isMild (x >>= f) = true) : isMild x = true := by
  cases x with
  | error e => exact h
  | ok a => rfl

namespace Tree
variable {t t' t'' : Tree} {here there : Location} {path m n : String} {d : Document}

/-- The path leads to a directory at this location. -/
structure Leads (t : Tree) (path : String) (here : Location) : Prop where
  locate_eq : t.locate path = .ok here
  isDirectory : t.find? here = some .directory

theorem KeepsDirectories.leads (h : KeepsDirectories t t') (k : t.Leads path here) :
    t'.Leads path here :=
  ⟨h.locate k.locate_eq, h here k.isDirectory⟩

/-- What the file of a name directly inside of a directory holds. -/
def held? (t : Tree) (here : Location) (n : String) : Option Document :=
  match t.find? (here ++ [n]) with
  | some (.file d) => some d
  | _ => none

theorem held?_eq_some_iff : t.held? here n = some d ↔ t.find? (here ++ [n]) = some (.file d) := by
  unfold held?
  split <;> simp_all

theorem held?_congr (h : t'.find? (here ++ [n]) = t.find? (here ++ [n])) :
    t'.held? here n = t.held? here n := by
  unfold held?
  rw [h]

theorem held?_insert (n m : String) (d : Document) :
    (t.insert (here ++ [n]) (.file d)).held? here m =
      Function.update (t.held? here) n (some d) m := by
  by_cases e : m = n
  · subst e
    rw [Function.update_self, held?_eq_some_iff, find?_insert _ (by simp), if_pos rfl]
  · rw [Function.update_of_ne e]
    refine held?_congr ?_
    rw [find?_insert _ (by simp), if_neg (by simpa using e)]

theorem held?_erase (n m : String) :
    (t.erase (here ++ [n])).held? here m = Function.update (t.held? here) n none m := by
  by_cases e : m = n
  · subst e
    rw [Function.update_self, held?, find?_erase _ (by simp), if_pos rfl]
  · rw [Function.update_of_ne e]
    refine held?_congr ?_
    rw [find?_erase _ (by simp), if_neg (by simpa using e)]

/-! ### Locations -/

theorem filePath_ne_empty (plain : PlainName n) : filePath path n ≠ "" := by
  intro e
  have h := Path.parts_join path plain
  rw [← filePath, e] at h
  cases (List.append_eq_nil_iff.1 h.symm).2

theorem follow_plain_of_directory (plain : PlainName n) (h : t.find? here = some .directory) :
    t.follow here n =
      if nameLimit < n.utf8ByteSize then .error .nameTooLong else .ok (here ++ [n]) := by
  unfold follow
  rw [enter_eq_ok_iff.2 h]
  simp [plain.ne_here, plain.ne_above, bind, Except.bind]

theorem isMild_partsOf (mild : isMild (partsOf path) = true) :
    partsOf path = .ok (Path.parts path) := by
  unfold partsOf at mild ⊢
  split at mild
  · cases mild
  · split at mild
    · cases mild
    · next h k => rw [if_neg h, if_neg k]

/-- Inside of a directory only the name and the length of the path count. -/
theorem locate_filePath_of_directory {directory : String} (plain : PlainName n)
    (walked : t.walk [] (Path.parts directory) = .ok here)
    (there : t.find? here = some .directory) :
    t.locate (filePath directory n) = partsOf (filePath directory n) >>= fun _ =>
      if nameLimit < n.utf8ByteSize then .error .nameTooLong else .ok (here ++ [n]) := by
  rw [locate, if_neg (filePath_ne_empty plain)]
  cases hp : partsOf (filePath directory n) with
  | error e => rfl
  | ok parts =>
    obtain rfl := parts_of_partsOf hp
    show t.walk [] (Path.parts (Path.join directory n)) = _
    rw [Path.parts_join directory plain, walk_append, walked]
    show (t.follow here n >>= Except.ok) = _
    rw [follow_plain_of_directory plain there]
    show _ = ite _ _ _
    split <;> rfl

/-- Along a path to the directory a name leads right into it, or is too long. -/
theorem Leads.locate_filePath (h : t.Leads path here) (plain : PlainName n)
    (mild : isMild (t.locate (filePath path n)) = true) :
    t.locate (filePath path n) = .ok (here ++ [n]) := by
  obtain ⟨-, parts, hp, walked⟩ := locate_eq_ok_iff.1 h.locate_eq
  obtain rfl := parts_of_partsOf hp
  rw [locate_filePath_of_directory plain walked h.isDirectory] at mild ⊢
  have parted := isMild_partsOf (isMild_of_bind mild)
  rw [parted] at mild ⊢
  replace mild : isMild (ite _ _ _) = true := mild
  show ite _ _ _ = _
  split at mild
  · cases mild
  · next short => rw [if_neg short]

/-! ### Operations -/

/-- From `t` to `t'` the directories have stayed, and now the files in this one hold `f`. -/
structure Becomes (t : Tree) (here : Location) (f : String → Option Document) (t' : Tree) :
    Prop where
  directories : KeepsDirectories t t'
  held?_eq : ∀ n, t'.held? here n = f n

theorem isMild_settle {r : Except DiskError Tree} : isMild (t.settle r).2 = isMild r := by
  cases r <;> rfl

theorem create_of_located (located : t.locate path = .ok here)
    (free : t.find? here ≠ some .directory) :
    t.create path = .ok (t.insert here (.file [])) := by
  simp only [Tree.create, located, bind, Except.bind]

theorem rename_of_located {source target : String} (origin : t.locate source = .ok here)
    (located : t.locate target = .ok there) (file : t.find? here = some (.file d))
    (free : t.find? there ≠ some .directory) :
    t.rename source target = .ok ((t.erase here).insert there (.file d)) := by
  simp only [Tree.rename, origin, located, bind, Except.bind, file]

variable (h : t.Leads path here) (plain : PlainName n)
include h plain

theorem Leads.create (mild : isMild (t.perform (.create (filePath path n))).2 = true) :
    (t.perform (.create (filePath path n))).2 = .ok [] ∧
    Becomes t here (Function.update (t.held? here) n (some []))
      (t.perform (.create (filePath path n))).1 := by
  rw [perform, isMild_settle] at mild
  have located := h.locate_filePath plain (isMild_of_bind mild)
  have free : t.find? (here ++ [n]) ≠ some .directory := by
    intro isDirectory
    simp only [Tree.create, located, bind, Except.bind, isDirectory] at mild
    cases mild
  have created := create_of_located located free
  rw [perform, created]
  exact ⟨rfl, (create_eq_ok created).directories.keeps, fun m => held?_insert n m []⟩

theorem Leads.write (old : t.held? here n ≠ none)
    (mild : isMild (t.perform (.write (filePath path n) d)).2 = true) :
    (t.perform (.write (filePath path n) d)).2 = .ok [] ∧
    Becomes t here (Function.update (t.held? here) n (some d))
      (t.perform (.write (filePath path n) d)).1 := by
  obtain ⟨c, hc⟩ := Option.ne_none_iff_exists'.1 old
  have file := held?_eq_some_iff.1 hc
  rw [perform, isMild_settle] at mild
  have located := h.locate_filePath plain (isMild_of_bind mild)
  have written : t.write (filePath path n) d = .ok (t.insert (here ++ [n]) (.file d)) := by
    simp only [Tree.write, located, bind, Except.bind, file]
  rw [perform, written]
  refine ⟨rfl, ?_, fun m => held?_insert n m d⟩
  exact (write_eq_ok written).1.directories.keeps

theorem Leads.rename (plain' : PlainName m) (source : t.held? here m = some d)
    (mild : isMild (t.perform (.rename (filePath path m) (filePath path n))).2 = true) :
    (t.perform (.rename (filePath path m) (filePath path n))).2 = .ok [] ∧
    Becomes t here (Function.update (Function.update (t.held? here) m none) n (some d))
      (t.perform (.rename (filePath path m) (filePath path n))).1 := by
  have file := held?_eq_some_iff.1 source
  rw [perform, isMild_settle] at mild
  have origin := h.locate_filePath plain' (isMild_of_bind mild)
  have target : t.locate (filePath path n) = .ok (here ++ [n]) := by
    rw [Tree.rename, origin] at mild
    exact h.locate_filePath plain (isMild_of_bind mild)
  have free : t.find? (here ++ [n]) ≠ some .directory := by
    intro isDirectory
    simp only [Tree.rename, origin, target, bind, Except.bind, file, isDirectory] at mild
    cases mild
  have renamed := rename_of_located origin target file free
  rw [perform, renamed]
  refine ⟨rfl, (rename_eq_ok renamed).1.directories.keeps, fun k => ?_⟩
  show ((t.erase (here ++ [m])).insert (here ++ [n]) (.file d)).held? here k = _
  rw [held?_insert, funext (held?_erase m)]

theorem Leads.read (mild : isMild (t.perform (.read (filePath path n))).2 = true) :
    (t.perform (.read (filePath path n))).2 = match t.held? here n with
      | some d => .ok d
      | none => .error .notFound := by
  replace mild : isMild (t.read (filePath path n)) = true := mild
  show t.read (filePath path n) = _
  have located := h.locate_filePath plain (isMild_of_bind mild)
  simp only [Tree.read, located, bind, Except.bind] at mild ⊢
  unfold held?
  cases hf : t.find? (here ++ [n]) with
  | none => rfl
  | some e =>
    cases e with
    | file c => rfl
    | directory => rw [hf] at mild; cases mild

theorem Leads.remove (mild : isMild (t.perform (.remove (filePath path n))).2 = true) :
    Becomes t here (Function.update (t.held? here) n none)
      (t.perform (.remove (filePath path n))).1 := by
  rw [perform, isMild_settle] at mild
  have located := h.locate_filePath plain (isMild_of_bind mild)
  rw [perform]
  cases hf : t.find? (here ++ [n]) with
  | none =>
    have removed : t.remove (filePath path n) = .error .notFound := by
      simp only [Tree.remove, located, bind, Except.bind, hf]
    have absent : t.held? here n = none := by simp only [held?, hf]
    rw [removed, ← absent, Function.update_eq_self]
    exact ⟨fun _ hl => hl, fun _ => rfl⟩
  | some e =>
    cases e with
    | file c =>
      have removed : t.remove (filePath path n) = .ok (t.erase (here ++ [n])) := by
        simp only [Tree.remove, located, bind, Except.bind, hf]
      rw [removed]
      exact ⟨(remove_eq_ok removed).1.directories.keeps, fun k => held?_erase n k⟩
    | directory =>
      simp only [Tree.remove, located, bind, Except.bind, hf] at mild
      cases mild

omit plain

theorem Leads.openExisting : (t.perform (.openExisting path)).2 = .ok [] := by
  simp [perform, Tree.openExisting, h.locate_eq, h.isDirectory, bind, Except.bind, Except.map]

/-! ### Names that are short enough -/

omit h

/-- The name is short enough, and so is the whole path to a file of it. -/
structure Fits (path n : String) : Prop where
  parts_eq : partsOf (filePath path n) = .ok (Path.parts (filePath path n))
  le_nameLimit : n.utf8ByteSize ≤ nameLimit

theorem Leads.locate_of_fits (h : t.Leads path here) (plain : PlainName n) (fits : Fits path n) :
    t.locate (filePath path n) = .ok (here ++ [n]) := by
  obtain ⟨-, parts, hp, walked⟩ := locate_eq_ok_iff.1 h.locate_eq
  obtain rfl := parts_of_partsOf hp
  rw [locate_filePath_of_directory plain walked h.isDirectory, fits.parts_eq]
  exact if_neg (Nat.not_lt.2 fits.le_nameLimit)

variable (located : t.locate path = .ok here) (file : t.find? here ≠ some .directory)
include located file

omit located file

/-! ### Making directories -/

/-- There is nothing to make where there is a directory. -/
theorem Leads.makeDirectories (h : t.Leads path here) :
    t.perform (.makeDirectories path) = (t, .ok []) := by
  obtain ⟨-, parts, hp, walked⟩ := locate_eq_ok_iff.1 h.locate_eq
  have ensured : t.ensureAll parts = (t, .ok here) := by
    rw [ensureAll, walked]
    simp only [ensure, h.isDirectory]
  rw [perform, Tree.makeDirectories, hp]
  simp only [ensured]
  rfl

/-- From `t` to `t'` nothing has changed, but that there may be more directories. -/
def Furnishes (t t' : Tree) : Prop :=
  ∀ l, t'.find? l = t.find? l ∨ t.find? l = none ∧ t'.find? l = some .directory

theorem Furnishes.refl (t : Tree) : Furnishes t t := fun _ => .inl rfl

theorem Furnishes.trans (h : Furnishes t t') (k : Furnishes t' t'') : Furnishes t t'' := by
  intro l
  obtain e | ⟨absent, made⟩ := k l
  · rw [e]
    exact h l
  · obtain e | ⟨-, made'⟩ := h l
    · exact .inr ⟨e ▸ absent, made⟩
    · rw [made'] at absent
      cases absent

theorem furnishes_ensure (t : Tree) (here : Location) : Furnishes t (t.ensure here).1 := by
  unfold ensure
  split
  · next absent =>
    have ne : here ≠ [] := ne_nil_of_find? (by rw [absent]; nofun)
    intro l
    rw [find?_insert t ne]
    split
    · next e => exact .inr ⟨e ▸ absent, rfl⟩
    · exact .inl rfl
  · exact .refl t
  · exact .refl t

theorem furnishes_ensureAll (t : Tree) (parts : List String) :
    Furnishes t (t.ensureAll parts).1 := by
  fun_induction ensureAll t parts with
  | case1 => exact furnishes_ensure _ _
  | case2 => exact .refl _
  | case3 _ _ _ _ _ _ _ made ih =>
    rw [made] at ih
    exact ih
  | case4 _ _ _ _ _ _ _ made _ _ ih =>
    rw [made] at ih
    exact ih.trans (furnishes_ensure _ _)
  | case5 _ _ _ _ _ _ _ made _ _ ih =>
    rw [made] at ih
    exact ih
  | case6 => exact .refl _

theorem furnishes_makeDirectories (t : Tree) (path : String) :
    Furnishes t (t.perform (.makeDirectories path)).1 := by
  show Furnishes t (t.makeDirectories path).1
  unfold makeDirectories
  split
  · exact .refl t
  · exact furnishes_ensureAll t _

theorem Furnishes.becomes (h : Furnishes t t') (here : Location) :
    Becomes t here (t.held? here) t' := by
  refine ⟨fun l hl => ?_, fun n => Option.ext fun d => ?_⟩
  · obtain e | ⟨-, made⟩ := h l
    · rw [e, hl]
    · exact made
  · rw [held?_eq_some_iff, held?_eq_some_iff]
    obtain e | ⟨absent, made⟩ := h (here ++ [n])
    · rw [e]
    · simp [absent, made]

theorem becomes_makeDirectories (t : Tree) (path : String) (here : Location) :
    Becomes t here (t.held? here) (t.perform (.makeDirectories path)).1 :=
  (furnishes_makeDirectories t path).becomes here

end Tree
end ServiceBus
