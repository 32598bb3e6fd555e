import ServiceBus.Proofs.Store.Names

/-!
# What disk operations do to the files in a directory

An operation on files leaves the directories as they are (`touches_perform`), so every path leads
where it led before, and it changes only the files at the paths it names. Different plain names lead
to different places, so an operation on one such file leaves the others alone
(`content?_perform_of_ne`).
-/

namespace ServiceBus

/-- The paths whose files the operation may change. -/
def DiskOperation.touched : DiskOperation → List String
  | .create path | .write path _ | .remove path => [path]
  | .rename source target => [source, target]
  | .makeDirectories _ | .sync _ | .openExisting _ | .read _ => []

/-- Whether the operation may make directories. -/
def DiskOperation.makesDirectories : DiskOperation → Bool
  | .makeDirectories _ => true
  | _ => false

theorem bind_eq_ok {ε α β : Type} {x : Except ε α} {f : α → Except ε β} {r : β} :
    x >>= f = .ok r ↔ ∃ a, x = .ok a ∧ f a = .ok r := by
  cases x <;> simp [bind, Except.bind]

namespace Tree
variable {t t' : Tree} {here there : Location} {path source target : String}

/-! ### Following a path -/

/-- What is a directory in the first tree is one in the second. -/
def KeepsDirectories (t t' : Tree) : Prop :=
  ∀ l, t.find? l = some .directory → t'.find? l = some .directory

/-- The directories of both trees are the same. -/
def SameDirectories (t t' : Tree) : Prop :=
  ∀ l, t'.find? l = some .directory ↔ t.find? l = some .directory

theorem SameDirectories.symm (h : SameDirectories t t') : SameDirectories t' t :=
  fun l => (h l).symm

theorem SameDirectories.keeps (h : SameDirectories t t') : KeepsDirectories t t' :=
  fun l => (h l).2

theorem enter_eq_ok_iff : t.enter here = .ok () ↔ t.find? here = some .directory := by
  unfold enter
  split <;> simp [*]

theorem follow_eq_ok {part : String} (h : t.follow here part = .ok there) :
    t.find? here = some .directory := by
  unfold follow at h
  obtain ⟨u, he, -⟩ := bind_eq_ok.1 h
  exact enter_eq_ok_iff.1 he

theorem KeepsDirectories.follow (h : KeepsDirectories t t') {part : String}
    (hf : t.follow here part = .ok there) : t'.follow here part = .ok there := by
  have he := enter_eq_ok_iff.2 (follow_eq_ok hf)
  have he' := enter_eq_ok_iff.2 (h here (follow_eq_ok hf))
  unfold Tree.follow at hf ⊢
  rw [he] at hf
  rw [he']
  exact hf

theorem KeepsDirectories.walk (h : KeepsDirectories t t') {parts : List String}
    (hw : t.walk here parts = .ok there) : t'.walk here parts = .ok there := by
  induction parts generalizing here with
  | nil => exact hw
  | cons part parts ih =>
    unfold Tree.walk at hw ih ⊢
    rw [List.foldlM_cons] at hw ⊢
    obtain ⟨l, hf, hw⟩ := bind_eq_ok.1 hw
    exact bind_eq_ok.2 ⟨l, h.follow hf, ih hw⟩

theorem locate_eq_ok_iff : t.locate path = .ok here ↔
    path ≠ "" ∧ ∃ parts, partsOf path = .ok parts ∧ t.walk [] parts = .ok here := by
  unfold locate
  split
  · next e => simp [e]
  · next ne => simp [ne, bind_eq_ok]

theorem KeepsDirectories.locate (h : KeepsDirectories t t') (hl : t.locate path = .ok here) :
    t'.locate path = .ok here := by
  obtain ⟨ne, parts, hp, hw⟩ := locate_eq_ok_iff.1 hl
  exact locate_eq_ok_iff.2 ⟨ne, parts, hp, h.walk hw⟩

theorem SameDirectories.locate (h : SameDirectories t t') (hl : t.locate path = .ok here) :
    t'.locate path = .ok here := h.keeps.locate hl

theorem SameDirectories.locate_iff (h : SameDirectories t t') :
    t'.locate path = .ok here ↔ t.locate path = .ok here :=
  ⟨h.symm.locate, h.locate⟩

theorem parts_of_partsOf {parts : List String} (h : partsOf path = .ok parts) :
    parts = Path.parts path := by
  unfold partsOf at h
  split at h
  · cases h
  split at h <;> cases h
  rfl

theorem walk_append (t : Tree) (here : Location) (ps qs : List String) :
    t.walk here (ps ++ qs) = t.walk here ps >>= fun l => t.walk l qs :=
  List.foldlM_append

theorem follow_plain {n : String} (plain : PlainName n) (h : t.follow here n = .ok there) :
    there = here ++ [n] := by
  have he := enter_eq_ok_iff.2 (follow_eq_ok h)
  unfold follow at h
  rw [he] at h
  simp only [Except.bind, bind, plain.ne_here, plain.ne_above, if_false] at h
  split at h <;> cases h
  rfl

/-- A path that ends with a plain name leads directly inside of a directory. -/
theorem locate_filePath {directory n : String} (plain : PlainName n)
    (h : t.locate (filePath directory n) = .ok there) :
    ∃ here, t.walk [] (Path.parts directory) = .ok here ∧ t.find? here = some .directory ∧
      there = here ++ [n] := by
  obtain ⟨-, parts, hp, hw⟩ := locate_eq_ok_iff.1 h
  rw [parts_of_partsOf hp, filePath, Path.parts_join directory plain, walk_append] at hw
  obtain ⟨here, hd, hw⟩ := bind_eq_ok.1 hw
  unfold walk at hw
  rw [List.foldlM_cons] at hw
  obtain ⟨l, hn, hl⟩ := bind_eq_ok.1 hw
  cases hl
  exact ⟨here, hd, follow_eq_ok hn, follow_plain plain hn⟩

/-- Different names lead to different places, in whatever directories. -/
theorem locate_filePath_ne {directory directory' m n : String} (hm : PlainName m)
    (hn : PlainName n) (ne : m ≠ n) (h : t.locate (filePath directory m) = .ok here) :
    t.locate (filePath directory' n) ≠ .ok here := by
  intro k
  obtain ⟨d, -, -, rfl⟩ := locate_filePath hm h
  obtain ⟨d', -, -, e⟩ := locate_filePath hn k
  exact ne (List.singleton_inj.1 (List.append_inj' e rfl).2)

/-! ### What can be read -/

/-- The content of the file at a path, if there is one. -/
def content? (t : Tree) (path : String) : Option Document := (t.read path).toOption

theorem content?_eq_some_iff_read {d : Document} :
    t.content? path = some d ↔ t.read path = .ok d := by
  unfold content?
  cases t.read path <;> simp [Except.toOption]

theorem content?_eq_some_iff {d : Document} :
    t.content? path = some d ↔ ∃ l, t.locate path = .ok l ∧ t.find? l = some (.file d) := by
  unfold content? read
  cases hl : t.locate path with
  | error e => simp [Except.toOption, bind, Except.bind]
  | ok l =>
    simp only [bind, Except.bind, Except.ok.injEq, exists_eq_left']
    split <;> simp [Except.toOption, *]

theorem ne_nil_of_find? (h : t.find? here ≠ some .directory) : here ≠ [] := by
  rintro rfl
  exact h t.find?_nil

/-- From `t` to `t'` only files at these paths may have changed. -/
structure Touches (paths : List String) (t t' : Tree) : Prop where
  directories : SameDirectories t t'
  find?_eq : ∀ l, (∀ p ∈ paths, t.locate p ≠ .ok l) → t'.find? l = t.find? l

namespace Touches
variable {paths : List String}

theorem refl (paths : List String) (t : Tree) : Touches paths t t := ⟨fun _ => .rfl, fun _ _ => rfl⟩

theorem insert (hp : path ∈ paths) (hl : t.locate path = .ok here)
    (hf : t.find? here ≠ some .directory) (d : Document) :
    Touches paths t (t.insert here (.file d)) := by
  have hn := ne_nil_of_find? hf
  refine ⟨fun l => ?_, fun l h => ?_⟩ <;> rw [find?_insert t hn]
  · split
    · next e => subst e; simp [hf]
    · rfl
  · exact if_neg fun e : l = here => h path hp (e ▸ hl)

theorem erase (hp : path ∈ paths) (hl : t.locate path = .ok here)
    (hf : t.find? here ≠ some .directory) : Touches paths t (t.erase here) := by
  have hn := ne_nil_of_find? hf
  refine ⟨fun l => ?_, fun l h => ?_⟩ <;> rw [find?_erase t hn]
  · split
    · next e => subst e; simp [hf]
    · rfl
  · exact if_neg fun e : l = here => h path hp (e ▸ hl)

theorem trans {t'' : Tree} (h : Touches paths t t') (k : Touches paths t' t'') :
    Touches paths t t'' where
  directories l := (k.directories l).trans (h.directories l)
  find?_eq l hl := by
    rw [k.find?_eq l fun p hp => by rw [Ne, h.directories.locate_iff]; exact hl p hp]
    exact h.find?_eq l hl

/-- What stands elsewhere is read as before. -/
theorem content?_eq (h : Touches paths t t')
    (apart : ∀ p ∈ paths, ∀ l, t.locate path = .ok l → t.locate p ≠ .ok l) :
    t'.content? path = t.content? path := by
  refine Option.ext fun d => ?_
  rw [content?_eq_some_iff, content?_eq_some_iff]
  refine exists_congr fun l => ?_
  rw [h.directories.locate_iff]
  refine and_congr_right fun hl => ?_
  rw [h.find?_eq l fun p hp => apart p hp l hl]

end Touches

/-! ### Operations -/

theorem create_eq_ok (h : t.create path = .ok t') : Touches [path] t t' := by
  obtain ⟨here, hl, h⟩ := bind_eq_ok.1 h
  split at h
  · cases h
  · next hf => cases h; exact .insert List.mem_cons_self hl hf _

theorem write_eq_ok {d : Document} (h : t.write path d = .ok t') :
    Touches [path] t t' ∧ t'.content? path = some d := by
  obtain ⟨here, hl, h⟩ := bind_eq_ok.1 h
  split at h
  · next old hf =>
    cases h
    have hd : t.find? here ≠ some .directory := fun e => by rw [e] at hf; cases hf
    have ht : Touches [path] t (t.insert here (.file d)) := .insert List.mem_cons_self hl hd d
    refine ⟨ht, content?_eq_some_iff.2 ⟨here, ht.directories.locate hl, ?_⟩⟩
    rw [find?_insert t (ne_nil_of_find? hd), if_pos rfl]
  · cases h
  · cases h

theorem remove_eq_ok (h : t.remove path = .ok t') :
    Touches [path] t t' ∧ t'.content? path = none := by
  obtain ⟨here, hl, h⟩ := bind_eq_ok.1 h
  split at h
  · next old hf =>
    cases h
    have hd : t.find? here ≠ some .directory := fun e => by rw [e] at hf; cases hf
    have ht : Touches [path] t (t.erase here) := .erase List.mem_cons_self hl hd
    refine ⟨ht, Option.eq_none_iff_forall_ne_some.2 fun d hc => ?_⟩
    obtain ⟨l, hl', hf'⟩ := content?_eq_some_iff.1 hc
    cases (ht.directories.locate hl).symm.trans hl'
    rw [find?_erase t (ne_nil_of_find? hd), if_pos rfl] at hf'
    cases hf'
  · cases h
  · cases h

/-- A file that cannot be removed is not there. -/
theorem content?_of_remove_error {e : DiskError} (h : t.remove path = .error e) :
    t.content? path = none := by
  refine Option.eq_none_iff_forall_ne_some.2 fun d hc => ?_
  obtain ⟨l, hl, hf⟩ := content?_eq_some_iff.1 hc
  simp only [remove, hl, bind, Except.bind, hf] at h
  cases h

theorem rename_eq_ok (h : t.rename source target = .ok t') :
    Touches [source, target] t t' ∧ t'.content? target = t.content? source := by
  obtain ⟨origin, hs, h⟩ := bind_eq_ok.1 h
  obtain ⟨there, ht, h⟩ := bind_eq_ok.1 h
  split at h
  · cases h
  · cases h
  · next d hf hd =>
    cases h
    have hd' : t.find? origin ≠ some .directory := fun e => by rw [e] at hf; cases hf
    have he : Touches [source, target] t (t.erase origin) := .erase (by simp) hs hd'
    have hd'' : (t.erase origin).find? there ≠ some .directory := by
      rw [Ne, he.directories there]
      exact hd
    have hi : Touches [source, target] _ ((t.erase origin).insert there (.file d)) :=
      .insert (by simp) (he.directories.locate ht) hd'' d
    refine ⟨he.trans hi, ?_⟩
    rw [content?_eq_some_iff.2 ⟨origin, hs, hf⟩, content?_eq_some_iff]
    refine ⟨there, (he.trans hi).directories.locate ht, ?_⟩
    rw [find?_insert _ (ne_nil_of_find? hd''), if_pos rfl]
  · cases h

theorem settle_cases {r : Except DiskError Tree} :
    (∃ e, r = .error e ∧ t.settle r = (t, .error e)) ∨
    ∃ t', r = .ok t' ∧ t.settle r = (t', .ok []) := by
  cases r with
  | error e => exact .inl ⟨e, rfl, rfl⟩
  | ok t' => exact .inr ⟨t', rfl, rfl⟩

theorem touches_perform (t : Tree) {o : DiskOperation} (ho : o.makesDirectories = false) :
    Touches o.touched t (t.perform o).1 := by
  cases o with
  | makeDirectories path => cases ho
  | sync path | openExisting path | read path => exact .refl _ t
  | create path =>
    obtain ⟨e, -, h⟩ | ⟨t', hr, h⟩ := settle_cases (t := t) (r := t.create path) <;>
      rw [perform, h]
    · exact .refl _ t
    · exact create_eq_ok hr
  | write path d =>
    obtain ⟨e, -, h⟩ | ⟨t', hr, h⟩ := settle_cases (t := t) (r := t.write path d) <;>
      rw [perform, h]
    · exact .refl _ t
    · exact (write_eq_ok hr).1
  | remove path =>
    obtain ⟨e, -, h⟩ | ⟨t', hr, h⟩ := settle_cases (t := t) (r := t.remove path) <;>
      rw [perform, h]
    · exact .refl _ t
    · exact (remove_eq_ok hr).1
  | rename source target =>
    obtain ⟨e, -, h⟩ | ⟨t', hr, h⟩ := settle_cases (t := t) (r := t.rename source target) <;>
      rw [perform, h]
    · exact .refl _ t
    · exact (rename_eq_ok hr).1

theorem content?_perform_write {d r : Document} (h : (t.perform (.write path d)).2 = .ok r) :
    (t.perform (.write path d)).1.content? path = some d := by
  obtain ⟨e, -, hs⟩ | ⟨t', hr, hs⟩ := settle_cases (t := t) (r := t.write path d) <;>
    rw [perform, hs] at h ⊢
  · cases h
  · exact (write_eq_ok hr).2

theorem content?_perform_rename {r : Document} (h : (t.perform (.rename source target)).2 = .ok r) :
    (t.perform (.rename source target)).1.content? target = t.content? source := by
  obtain ⟨e, -, hs⟩ | ⟨t', hr, hs⟩ := settle_cases (t := t) (r := t.rename source target) <;>
    rw [perform, hs] at h ⊢
  · cases h
  · exact (rename_eq_ok hr).2

/-- What fails changes nothing. -/
theorem perform_of_error {o : DiskOperation} {e : DiskError} (ho : o.makesDirectories = false)
    (h : (t.perform o).2 = .error e) : (t.perform o).1 = t := by
  have settled {r : Except DiskError Tree} (hr : (t.settle r).2 = .error e) :
      (t.settle r).1 = t := by
    cases r with
    | error => rfl
    | ok => cases hr
  cases o with
  | makeDirectories => cases ho
  | sync | openExisting | read => rfl
  | create | write | remove => exact settled h
  | _ source target => exact settled h

/-- Whatever the answer, a file that was to be removed is gone. -/
theorem content?_perform_remove (t : Tree) (path : String) :
    (t.perform (.remove path)).1.content? path = none := by
  obtain ⟨e, hr, h⟩ | ⟨t', hr, h⟩ := settle_cases (t := t) (r := t.remove path) <;> rw [perform, h]
  · exact content?_of_remove_error hr
  · exact (remove_eq_ok hr).2

/-- An operation on files leaves those of other names alone. -/
theorem content?_perform_of_ne {directory n : String} {o : DiskOperation}
    (ho : o.makesDirectories = false) (hn : PlainName n)
    (ne : ∀ p ∈ o.touched, ∃ d m, PlainName m ∧ m ≠ n ∧ p = filePath d m) :
    (t.perform o).1.content? (filePath directory n) = t.content? (filePath directory n) := by
  refine (touches_perform t ho).content?_eq fun p hp l hl => ?_
  obtain ⟨d, m, hm, hmn, rfl⟩ := ne p hp
  exact locate_filePath_ne hn hm hmn.symm hl

end Tree

end ServiceBus
