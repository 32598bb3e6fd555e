import ServiceBus.Proofs.Files.Tree

/-!
# The paths of record files

A store in a directory calls its files by encoded ids. Whatever the ids are, the paths of their record
files are those of different things directly inside of the directory (`Path.Child`, `Path.Apart`), and
none of them is ever the path of a temporary file (`recordPaths_apart`).
-/

namespace ServiceBus

namespace Path
variable {directory m n : String}

/-- The path is that of something called `n` directly inside of the directory. -/
structure Child (directory n path : String) : Prop where
  plain : PlainName n
  parts_eq : parts path = parts directory ++ [n]
  name?_eq : name? path = some n
  parent?_eq : parent? (parts path) = some (trimDots (parts directory))
  /-- On any disk it leads directly inside of the directory, if it leads anywhere. -/
  leads : ∀ (t : Tree) there, t.locate path = .ok there →
    ∃ here, t.walk [] (parts directory) = .ok here ∧ t.find? here = some .directory ∧
      there = here ++ [n]

/-- The paths are different, and there is no disk on which they lead to the same place. -/
structure Apart (path path' : String) : Prop where
  parts_ne : parts path ≠ parts path'
  locate_ne : ∀ (t : Tree) here, t.locate path = .ok here → t.locate path' ≠ .ok here

theorem trimDots_concat (ps : List String) (plain : PlainName n) :
    trimDots (ps ++ [n]) = ps ++ [n] := by
  rw [trimDots, List.reverse_append, List.reverse_singleton, List.singleton_append,
    List.dropWhile_cons_of_neg (by simp [plain.ne_here]), List.reverse_cons, List.reverse_reverse]

theorem parent?_concat (ps : List String) (plain : PlainName n) :
    parent? (ps ++ [n]) = some (trimDots ps) := by
  unfold parent?
  rw [trimDots_concat ps plain]
  split
  · next e => simp at e
  · next p rest e => rw [← e, List.dropLast_concat]

theorem child_filePath (directory : String) (plain : PlainName n) :
    Child directory n (filePath directory n) where
  plain := plain
  parts_eq := parts_join directory plain
  name?_eq := by
    rw [name?, filePath, parts_join directory plain, trimDots_concat _ plain, List.getLast?_concat]
    split
    · next e => exact absurd (Option.some.inj e) plain.ne_above
    · rfl
  parent?_eq := by rw [filePath, parts_join directory plain, parent?_concat _ plain]
  leads _ _ := Tree.locate_filePath plain

/-- Different names in one directory. -/
theorem apart_filePath (directory : String) (hm : PlainName m) (hn : PlainName n) (ne : m ≠ n) :
    Apart (filePath directory m) (filePath directory n) where
  parts_ne e := by
    rw [filePath, filePath, parts_join directory hm, parts_join directory hn,
      List.append_cancel_left_eq, List.singleton_inj] at e
    exact ne e
  locate_ne _ _ := Tree.locate_filePath_ne hm hn ne

end Path

/-- Ids are encoded one to one, by few characters that no path gives a meaning. So each has a record
file of its own right inside of the store's directory, which no other id's record file and no temporary
file can be. -/
theorem recordPaths_apart :
    (∀ i j, Percent.encode i = Percent.encode j ↔ i = j) ∧
    (∀ id, ∀ c ∈ (Percent.encode id).toList, c.isAlphanum = true ∨ c = '-' ∨ c = '_' ∨ c = '%') ∧
    ∀ directory : String,
      (∀ id, Path.Child directory (recordName id) (filePath directory (recordName id))) ∧
      (∀ i j, i ≠ j →
        Path.Apart (filePath directory (recordName i)) (filePath directory (recordName j))) ∧
      ∀ i j mark,
        Path.Apart (filePath directory (recordName i)) (filePath directory (temporaryName j mark)) := by
  refine ⟨fun i j => ⟨Percent.encode_injective, congrArg _⟩, fun id c hc => ?_,
    fun directory => ⟨?_, ?_, ?_⟩⟩
  · have safe := Percent.isSafe_of_mem_encode hc
    simpa [Percent.isSafe, or_assoc] using safe
  · exact fun id => Path.child_filePath directory (plainName_recordName id)
  · intro i j ne
    exact Path.apart_filePath directory (plainName_recordName i) (plainName_recordName j)
      fun same => ne (recordName_injective same)
  · intro i j mark
    exact Path.apart_filePath directory (plainName_recordName i) (plainName_temporaryName j mark)
      (temporaryName_ne_recordName j i mark).symm

/-- What one id is encoded as can be another id, and neither leads out of the directory. -/
theorem recordPaths_apart_escaped :
    Percent.encode "../é" = "%2E%2E%2F%C3%A9" ∧ "../é" ≠ "%2E%2E%2F%C3%A9" ∧
    'é' ∉ (Percent.encode "../é").toList ∧
    Path.Child "/srv/store" "%2E%2E%2F%C3%A9.json" (filePath "/srv/store" (recordName "../é")) ∧
    Path.Apart (filePath "/srv/store" (recordName "../é"))
      (filePath "/srv/store" (recordName "%2E%2E%2F%C3%A9")) := by
  obtain ⟨-, kept, inside⟩ := recordPaths_apart
  obtain ⟨child, apart, -⟩ := inside "/srv/store"
  refine ⟨rfl, by decide, fun h => ?_, child "../é", apart _ _ (by decide)⟩
  exact absurd (kept "../é" 'é' h) (by decide)

end ServiceBus
