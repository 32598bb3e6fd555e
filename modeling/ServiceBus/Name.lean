import ServiceBus.Json.Decode

/-!
# Qualified names

A `QualifiedName` is a namespace and a local part. It is written `{namespace}local`, or as the local
part alone when the namespace is empty, and read from `{namespace}local` (up to the first brace),
`namespace#local` (from the last number sign) or a bare local part. Names are ordered by namespace,
then local part.
-/

namespace ServiceBus

/-- A namespace and a local part. -/
structure QualifiedName where
  space : String
  localPart : String
  deriving DecidableEq, Repr, Inhabited

namespace QualifiedName

instance : Ord QualifiedName :=
  ⟨fun a b => (compare a.space b.space).then (compare a.localPart b.localPart)⟩

def bare (s : String) : QualifiedName := ⟨"", s⟩

/-- The parts before and after the first `c`. -/
def splitFirst? (c : Char) : List Char → Option (List Char × List Char)
  | [] => none
  | x :: xs => if x = c then some ([], xs) else (splitFirst? c xs).map fun (a, b) => (x :: a, b)

/-- The parts before and after the last `c`. -/
def splitLast? (c : Char) : List Char → Option (List Char × List Char)
  | [] => none
  | x :: xs =>
    match splitLast? c xs with
    | some (a, b) => some (x :: a, b)
    | none => if x = c then some ([], xs) else none

/-- Reads `namespace#local` with a namespace that is not empty, and otherwise a local part. -/
def ofFragment (cs : List Char) : QualifiedName :=
  match splitLast? '#' cs with
  | some (a :: as, b) => ⟨String.ofList (a :: as), String.ofList b⟩
  | _ => bare (String.ofList cs)

def ofChars : List Char → QualifiedName
  | '\x7b' :: rest =>
    match splitFirst? '\x7d' rest with
    | some (a, b) => ⟨String.ofList a, String.ofList b⟩
    | none => ofFragment ('\x7b' :: rest)
  | cs => ofFragment cs

def parse (s : String) : QualifiedName := ofChars s.toList

def display (n : QualifiedName) : String :=
  if n.space = "" then n.localPart else "\x7b" ++ n.space ++ "\x7d" ++ n.localPart

/-! ### On the wire -/

def toJson (n : QualifiedName) : Json :=
  .object [("namespace", .text n.space), ("localPart", .text n.localPart)]

def decode : Decoder QualifiedName := fun d r => do
  let f ← r.record? ["namespace", "localPart"] d
  some ⟨← f.required "namespace" .text, ← f.required "localPart" .text⟩

end QualifiedName

/-- Puts an element into an increasing list unless it is there. -/
def insertSorted {α : Type} [Ord α] (a : α) : List α → List α
  | [] => [a]
  | b :: rest =>
    match compare a b with
    | .lt => a :: b :: rest
    | .eq => a :: rest
    | .gt => b :: insertSorted a rest

/-- The elements of a list in increasing order, each once. -/
def sortedSet {α : Type} [Ord α] (l : List α) : List α := l.foldr insertSorted []

/-- Stable sorting by a key. -/
def sortBy {α β : Type} [Ord β] (key : α → β) (l : List α) : List α :=
  l.mergeSort fun a b => (compare (key a) (key b)).isLE

end ServiceBus
