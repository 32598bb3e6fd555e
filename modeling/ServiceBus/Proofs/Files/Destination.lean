import ServiceBus.Proofs.Files.Inside

/-!
# Where a path leads, and where it does not

A path that can be followed leads to its `Path.destination`, whatever the tree. Two trees can differ
in the files directly inside of one directory (`Alike`). Operations inside of another one do the same
in both (`Parallel`), and so does the making of directories that both trees accept
(`Alike.makeDirectories`).
-/

namespace ServiceBus

namespace Path

/-- One part further, whether there is a directory or not. -/
def advance (here : Location) (part : String) : Location :=
  if part = "." then here else if part = ".." then here.dropLast else here ++ [part]

/-- Where a path leads if there are directories all along. -/
def destination (path : String) : Location := (parts path).foldl advance []

theorem destination_join (directory : String) {n : String} (plain : PlainName n) :
    destination (join directory n) = destination directory ++ [n] := by
  rw [destination, parts_join directory plain, List.foldl_append]
  show advance (destination directory) n = _
  rw [advance, if_neg plain.ne_here, if_neg plain.ne_above]

theorem prefix_trimDots (ps : List String) : trimDots ps <+: ps := by
  rw [trimDots, ← List.reverse_suffix, List.reverse_reverse]
  exact List.dropWhile_suffix _

theorem prefix_of_parent? {ps qs : List String} (h : parent? ps = some qs) : qs <+: ps := by
  unfold parent? at h
  split at h
  · cases h
  · next p rest e =>
    injection h with h
    have shorter : (p :: rest).dropLast <+: p :: rest := List.dropLast_prefix _
    rw [← h]
    exact ((prefix_trimDots _).trans shorter).trans (e ▸ prefix_trimDots ps)

end Path

namespace Tree
variable {t t' u u' : Tree} {here there gone : Location} {path n : String} {parts : List String}

theorem walk_eq_ok (h : t.walk here parts = .ok there) :
    there = parts.foldl Path.advance here := by
  induction parts generalizing here with
  | nil => cases h; rfl
  | cons part parts ih =>
    unfold walk at h ih
    rw [List.foldlM_cons] at h
    obtain ⟨next, followed, h⟩ := bind_eq_ok.1 h
    rw [List.foldl_cons, ih h]
    congr 1
    unfold follow at followed
    obtain ⟨-, -, followed⟩ := bind_eq_ok.1 followed
    unfold Path.advance
    split at followed
    · next e => cases followed; rw [if_pos e]
    · next ne =>
      rw [if_neg ne]
      split at followed
      · next e => cases followed; rw [if_pos e]
      · next ne =>
        rw [if_neg ne]
        split at followed <;> cases followed
        rfl

/-- The directory of a path is there. -/
structure Reaches (t : Tree) (path : String) : Prop where
  walk_eq : t.walk [] (Path.parts path) = .ok (Path.destination path)
  isDirectory : t.find? (Path.destination path) = some .directory

theorem KeepsDirectories.reaches (h : KeepsDirectories t t') (k : t.Reaches path) :
    t'.Reaches path :=
  ⟨h.walk k.walk_eq, h _ k.isDirectory⟩

theorem Reaches.locate_of_fits (h : t.Reaches path) (plain : PlainName n) (fits : Fits path n) :
    t.locate (filePath path n) = .ok (Path.destination path ++ [n]) := by
  rw [locate_filePath_of_directory plain h.walk_eq h.isDirectory, fits.parts_eq]
  exact if_neg (Nat.not_lt.2 fits.le_nameLimit)

theorem Furnishes.keeps (h : Furnishes t t') : KeepsDirectories t t' := by
  intro l hl
  obtain e | ⟨-, made⟩ := h l
  · rw [e, hl]
  · exact made

/-! ### Making directories -/

/-- From `t` to `u` the directories have stayed, and there is one here. -/
def Gains (t : Tree) (here : Location) (u : Tree) : Prop :=
  ∀ l, u.find? l = some .directory ↔ t.find? l = some .directory ∨ l = here

theorem Gains.keeps (h : Gains t here u) : KeepsDirectories t u := fun l hl => (h l).2 (.inl hl)

theorem Gains.isDirectory (h : Gains t here u) : u.find? here = some .directory :=
  (h here).2 (.inr rfl)

theorem SameDirectories.gains (same : SameDirectories t t') (h : Gains t here u)
    (h' : Gains t' here u') : SameDirectories u u' := by
  intro l
  rw [h l, h' l, same l]

theorem ensure_eq_ok (h : t.ensure here = (u, .ok there)) : there = here ∧ Gains t here u := by
  unfold ensure at h
  split at h
  · next absent =>
    cases h
    have ne : here ≠ [] := ne_nil_of_find? (by rw [absent]; nofun)
    refine ⟨rfl, fun l => ?_⟩
    rw [find?_insert t ne]
    split
    · next e => simp [e]
    · next ne => simp [ne]
  · next present =>
    cases h
    refine ⟨rfl, fun l => ?_⟩
    rw [or_iff_left_of_imp]
    rintro rfl
    exact present
  · cases h

/-- Either only the last directory can be missing, or those above it have been made first. -/
theorem ensureAll_cases (h : t.ensureAll parts = (u, .ok here)) :
    t.walk [] parts = .ok here ∧ Gains t here u ∨
    ∃ above there t₁, Path.parent? parts = some above ∧ t.walk [] parts = .error .notFound ∧
      t.ensureAll above = (t₁, .ok there) ∧
      t₁.walk there (parts.drop above.length) = .ok here ∧ Gains t₁ here u := by
  unfold ensureAll at h
  split at h
  · next walked =>
    obtain ⟨rfl, gains⟩ := ensure_eq_ok h
    exact .inl ⟨walked, gains⟩
  · next missing =>
    split at h
    · cases h
    · next above parent =>
      split at h
      · cases h
      · next t₁ there made =>
        split at h
        · next onward =>
          obtain ⟨rfl, gains⟩ := ensure_eq_ok h
          exact .inr ⟨above, there, t₁, parent, missing, made, onward, gains⟩
        · cases h
  · cases h

theorem ensureAll_eq_ok (h : t.ensureAll parts = (u, .ok here)) :
    u.walk [] parts = .ok here ∧ u.find? here = some .directory := by
  induction hn : parts.length using Nat.strongRecOn generalizing parts u here with
  | ind n ih =>
    obtain ⟨walked, gains⟩ | ⟨above, there, t₁, parent, -, made, onward, gains⟩ :=
      ensureAll_cases h
    · exact ⟨gains.keeps.walk walked, gains.isDirectory⟩
    · have shorter := Path.length_of_parent? parent
      obtain ⟨walked, -⟩ := ih _ (hn ▸ shorter) made rfl
      refine ⟨?_, gains.isDirectory⟩
      have split : above ++ parts.drop above.length = parts :=
        List.prefix_iff_eq_append.1 (Path.prefix_of_parent? parent)
      rw [← split, walk_append, gains.keeps.walk walked]
      exact gains.keeps.walk onward

theorem SameDirectories.ensureAll (same : SameDirectories t t')
    (h : t.ensureAll parts = (u, .ok here)) (h' : t'.ensureAll parts = (u', .ok there)) :
    SameDirectories u u' := by
  induction hn : parts.length using Nat.strongRecOn generalizing parts u u' here there with
  | ind n ih =>
    have here_eq := walk_eq_ok (ensureAll_eq_ok h).1
    have there_eq := walk_eq_ok (ensureAll_eq_ok h').1
    have e : there = here := there_eq.trans here_eq.symm
    subst e
    obtain ⟨walked, gains⟩ | ⟨above, middle, t₁, parent, missing, made, -, gains⟩ :=
      ensureAll_cases h <;>
    obtain ⟨walked', gains'⟩ | ⟨above', middle', t₁', parent', missing', made', -, gains'⟩ :=
      ensureAll_cases h'
    · exact same.gains gains gains'
    · rw [same.keeps.walk walked] at missing'
      cases missing'
    · rw [same.symm.keeps.walk walked'] at missing
      cases missing
    · cases parent.symm.trans parent'
      exact (ih _ (hn ▸ Path.length_of_parent? parent) made made' rfl).gains gains gains'

variable {d d' : Document}

theorem makeDirectories_eq_ok (h : (t.perform (.makeDirectories path)).2 = .ok d) :
    ∃ here, t.ensureAll (Path.parts path) =
      ((t.perform (.makeDirectories path)).1, .ok here) := by
  simp only [perform, Tree.makeDirectories] at h ⊢
  split at h
  · cases h
  · next parts hp =>
    cases parts_of_partsOf hp
    generalize t.ensureAll (Path.parts path) = made at h ⊢
    obtain ⟨u, r⟩ := made
    cases r with
    | error e => cases h
    | ok here => exact ⟨here, rfl⟩

theorem reaches_makeDirectories (h : (t.perform (.makeDirectories path)).2 = .ok d) :
    (t.perform (.makeDirectories path)).1.Reaches path := by
  obtain ⟨here, ensured⟩ := makeDirectories_eq_ok h
  obtain ⟨walked, isDirectory⟩ := ensureAll_eq_ok ensured
  have there : here = Path.destination path := walk_eq_ok walked
  exact ⟨there ▸ walked, there ▸ isDirectory⟩

/-! ### Trees that differ in one directory -/

/-- The trees differ at most in the files directly inside of this directory. -/
structure Alike (gone : Location) (t t' : Tree) : Prop where
  directories : SameDirectories t t'
  find?_eq : ∀ l, (∀ n, l ≠ gone ++ [n]) → t'.find? l = t.find? l

namespace Alike

theorem refl (gone : Location) (t : Tree) : Alike gone t t := ⟨fun _ => .rfl, fun _ _ => rfl⟩

theorem symm (h : Alike gone t t') : Alike gone t' t :=
  ⟨h.directories.symm, fun l hl => (h.find?_eq l hl).symm⟩

theorem trans (h : Alike gone t t') (k : Alike gone t' u) : Alike gone t u :=
  ⟨fun l => (k.directories l).trans (h.directories l),
    fun l hl => (k.find?_eq l hl).trans (h.find?_eq l hl)⟩

theorem reaches (h : Alike gone t t') (k : t.Reaches path) : t'.Reaches path :=
  h.directories.keeps.reaches k

/-- Files directly inside of another directory are the same. -/
theorem find?_inside (h : Alike gone t t') (apart : here ≠ gone) (n : String) :
    t'.find? (here ++ [n]) = t.find? (here ++ [n]) :=
  h.find?_eq _ fun _ e => apart (List.append_inj' e rfl).1

theorem makeDirectories (h : Alike gone t t') (made : (t.perform (.makeDirectories path)).2 = .ok d)
    (made' : (t'.perform (.makeDirectories path)).2 = .ok d') :
    Alike gone (t.perform (.makeDirectories path)).1 (t'.perform (.makeDirectories path)).1 := by
  obtain ⟨here, ensured⟩ := makeDirectories_eq_ok made
  obtain ⟨here', ensured'⟩ := makeDirectories_eq_ok made'
  have same := h.directories.ensureAll ensured ensured'
  refine ⟨same, fun l hl => ?_⟩
  obtain stays | ⟨-, directory⟩ := furnishes_makeDirectories t path l
  · obtain stays' | ⟨-, directory'⟩ := furnishes_makeDirectories t' path l
    · rw [stays', stays, h.find?_eq l hl]
    · rw [directory', (same l).1 directory']
  · rw [directory, (same l).2 directory]

theorem insert (h : Alike gone t t') (ne : here ≠ []) (e : Entry) :
    Alike gone (t.insert here e) (t'.insert here e) := by
  refine ⟨fun l => ?_, fun l hl => ?_⟩ <;> rw [find?_insert _ ne, find?_insert _ ne] <;> split
  · rfl
  · exact h.directories l
  · rfl
  · exact h.find?_eq l hl

theorem erase (h : Alike gone t t') (ne : here ≠ []) :
    Alike gone (t.erase here) (t'.erase here) := by
  refine ⟨fun l => ?_, fun l hl => ?_⟩ <;> rw [find?_erase _ ne, find?_erase _ ne] <;> split
  · rfl
  · exact h.directories l
  · rfl
  · exact h.find?_eq l hl

end Alike

/-! ### The same operation in both -/

/-- The path leads to the same place in both trees, and the same stands there. -/
structure SameAt (t t' : Tree) (path : String) : Prop where
  locate_eq : t'.locate path = t.locate path
  find?_eq : ∀ l, t.locate path = .ok l → t'.find? l = t.find? l

namespace SameAt

theorem read_eq (same : SameAt t t' path) : t'.read path = t.read path := by
  unfold Tree.read
  rw [same.locate_eq]
  cases hl : t.locate path with
  | error e => rfl
  | ok l => simp only [bind, Except.bind, same.find?_eq l hl]

theorem openExisting_eq (same : SameAt t t' path) :
    t'.openExisting path = t.openExisting path := by
  unfold Tree.openExisting
  rw [same.locate_eq]
  cases hl : t.locate path with
  | error e => rfl
  | ok l => simp only [bind, Except.bind, same.find?_eq l hl]

end SameAt

/-- A change fails in both trees in the same way, or leaves trees that are alike. -/
inductive Parallel (gone : Location) : Except DiskError Tree → Except DiskError Tree → Prop
  | fails (e : DiskError) : Parallel gone (.error e) (.error e)
  | changes {u u' : Tree} (alike : Alike gone u u') : Parallel gone (.ok u) (.ok u')

theorem Parallel.settle {r r' : Except DiskError Tree} (p : Parallel gone r r')
    (h : Alike gone t t') : (t'.settle r').2 = (t.settle r).2 ∧
      Alike gone (t.settle r).1 (t'.settle r').1 := by
  cases p with
  | fails e => exact ⟨rfl, h⟩
  | changes alike => exact ⟨rfl, alike⟩

namespace Alike

theorem sameAt (h : Alike gone t t') (reaches : t.Reaches path) : SameAt t t' path := by
  have located {t : Tree} (reaches : t.Reaches path) : t.locate path =
      if path = "" then .error .notFound else partsOf path >>= fun _ =>
        .ok (Path.destination path) := by
    unfold locate
    split
    · rfl
    · cases hp : partsOf path with
      | error e => rfl
      | ok parts =>
        cases parts_of_partsOf hp
        exact reaches.walk_eq
  refine ⟨(located (h.reaches reaches)).trans (located reaches).symm, fun l hl => ?_⟩
  obtain ⟨-, parts, hp, walked⟩ := locate_eq_ok_iff.1 hl
  cases parts_of_partsOf hp
  cases walk_eq_ok walked
  exact (h.reaches reaches).isDirectory.trans reaches.isDirectory.symm

theorem sameAt_inside (h : Alike gone t t') (reaches : t.Reaches path)
    (apart : Path.destination path ≠ gone) (plain : PlainName n) :
    SameAt t t' (filePath path n) := by
  have reaches' := h.reaches reaches
  have located := locate_filePath_of_directory plain reaches.walk_eq reaches.isDirectory
  have located' := locate_filePath_of_directory plain reaches'.walk_eq reaches'.isDirectory
  refine ⟨located'.trans located.symm, fun l hl => ?_⟩
  obtain ⟨here, walked, -, rfl⟩ := locate_filePath plain hl
  cases walk_eq_ok walked
  exact h.find?_inside apart n

variable (h : Alike gone t t')
include h

theorem create (same : SameAt t t' path) : Parallel gone (t.create path) (t'.create path) := by
  unfold Tree.create
  rw [same.locate_eq]
  cases hl : t.locate path with
  | error e => exact .fails e
  | ok l =>
    simp only [bind, Except.bind, same.find?_eq l hl]
    split
    · exact .fails _
    · next free => exact .changes (h.insert (ne_nil_of_find? free) _)

theorem write (same : SameAt t t' path) (d : Document) :
    Parallel gone (t.write path d) (t'.write path d) := by
  unfold Tree.write
  rw [same.locate_eq]
  cases hl : t.locate path with
  | error e => exact .fails e
  | ok l =>
    simp only [bind, Except.bind, same.find?_eq l hl]
    split
    · next file => exact .changes (h.insert (ne_nil_of_find? (by rw [file]; nofun)) _)
    · exact .fails _
    · exact .fails _

theorem remove (same : SameAt t t' path) : Parallel gone (t.remove path) (t'.remove path) := by
  unfold Tree.remove
  rw [same.locate_eq]
  cases hl : t.locate path with
  | error e => exact .fails e
  | ok l =>
    simp only [bind, Except.bind, same.find?_eq l hl]
    split
    · next file => exact .changes (h.erase (ne_nil_of_find? (by rw [file]; nofun)))
    · exact .fails _
    · exact .fails _

theorem rename {source target : String} (same : SameAt t t' source) (same' : SameAt t t' target) :
    Parallel gone (t.rename source target) (t'.rename source target) := by
  unfold Tree.rename
  rw [same.locate_eq, same'.locate_eq]
  cases hs : t.locate source with
  | error e => exact .fails e
  | ok origin =>
    cases ht : t.locate target with
    | error e => exact .fails e
    | ok there =>
      simp only [bind, Except.bind, same.find?_eq origin hs, same'.find?_eq there ht]
      split
      · exact .fails _
      · exact .fails _
      · next file free =>
        have erased := h.erase (ne_nil_of_find? (by rw [file]; nofun))
        exact .changes (erased.insert (ne_nil_of_find? free) _)
      · exact .fails _

end Alike
end Tree
end ServiceBus
