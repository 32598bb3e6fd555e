/-!
# Paths

A path is a text whose parts stand between slashes. Empty parts count for nothing; `.` and `..` are
parts that a file system gives a meaning. `Path.parent?` and `Path.name?` look at the text alone,
and for them a `.` counts for nothing either.
-/

namespace ServiceBus.Path

/-- The pieces between slashes, empty ones included. -/
def pieces : List Char → List (List Char)
  | [] => [[]]
  | c :: rest =>
    match pieces rest with
    | [] => [[c]]
    | p :: ps => if c = '/' then [] :: p :: ps else (c :: p) :: ps

def parts (path : String) : List String :=
  ((pieces path.toList).filter fun p => !p.isEmpty).map String.ofList

def isRooted (path : String) : Bool := path.toList.head? = some '/'

/-- A path followed by another one, which replaces it if it starts at the root. -/
def join (path more : String) : String :=
  if isRooted more then more
  else if path = "" ∨ path.toList.getLast? = some '/' then path ++ more
  else path ++ "/" ++ more

def trimDots (ps : List String) : List String := (ps.reverse.dropWhile (· = ".")).reverse

/-- The parts of the directory that holds what the parts name. -/
def parent? (ps : List String) : Option (List String) :=
  match trimDots ps with
  | [] => none
  | p :: rest => some (trimDots (p :: rest).dropLast)

theorem length_trimDots (ps : List String) : (trimDots ps).length ≤ ps.length := by
  simpa [trimDots] using (List.dropWhile_sublist (· = ".") (l := ps.reverse)).length_le

theorem length_of_parent? {ps qs : List String} (h : parent? ps = some qs) :
    qs.length < ps.length := by
  unfold parent? at h
  split at h
  · cases h
  · next p rest e =>
    injection h with h
    have h₁ := length_trimDots ps
    have h₂ := length_trimDots (p :: rest).dropLast
    rw [e] at h₁
    rw [h, List.length_dropLast] at h₂
    simp only [List.length_cons] at h₁ h₂
    omega

/-- The name at the end of a path, unless the path ends by going up. -/
def name? (path : String) : Option String :=
  match (trimDots (parts path)).getLast? with
  | some ".." => none
  | last => last

end ServiceBus.Path
