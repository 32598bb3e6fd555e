import ServiceBus.Json.Raw

/-!
# Decoding JSON

A `Decoder α` reads an `α` from what a document says, with so many levels of nesting still allowed.
A record is read from an object or from an array of its fields in order (`Raw.record?`): names that
the record does not have are stepped over unread, a repeated one is refused. A choice among names is
read from the name itself or from an object with that name and a `null` (`Decoder.choice`).
-/

namespace ServiceBus

/-- Reads a value, with so many levels of arrays and objects still allowed. -/
abbrev Decoder (α : Type) := Nat → Raw → Option α

/-- What a record's document says about one of its fields. -/
inductive Slot where
  | given (r : Raw)
  /-- The object has no member of that name. -/
  | absent
  /-- The array ends before the field. -/
  | cut

/-- A record's fields, and the levels of nesting allowed inside them. -/
structure Fields where
  depth : Nat
  slot : String → Slot

namespace Fields

/-- A field that has to be there. -/
def required {α : Type} (f : Fields) (name : String) (dec : Decoder α) : Option α :=
  match f.slot name with
  | .given r => dec f.depth r
  | _ => none

/-- A field that may be `null` or missing from an object. -/
def optional {α : Type} (f : Fields) (name : String) (dec : Decoder α) : Option (Option α) :=
  match f.slot name with
  | .given .null => some none
  | .given r => (dec f.depth r).map some
  | .absent => some none
  | .cut => none

/-- A field that has a value of its own when it is missing. -/
def orElse {α : Type} (f : Fields) (name : String) (dec : Decoder α) (a : α) : Option α :=
  match f.slot name with
  | .given r => dec f.depth r
  | _ => some a

end Fields

namespace Raw

/-- The members of an object, if every name can be kept. -/
def named? : List (Option String × Raw) → Option (List (String × Raw))
  | [] => some []
  | (k, r) :: rest => do
    let name ← k
    let more ← named? rest
    some ((name, r) :: more)

/-- The only member of a name; `none` when the name is repeated. -/
def slot? (ms : List (String × Raw)) (name : String) : Option Slot :=
  match ms.filter fun m => m.1 = name with
  | [] => some .absent
  | [m] => some (.given m.2)
  | _ => none

/-- The fields of a record given as an object. -/
def fieldsOfMembers? (names : List String) (depth : Nat) (ms : List (String × Raw)) :
    Option Fields := do
  let slots ← names.mapM fun n => (slot? ms n).map fun s => (n, s)
  some ⟨depth, fun n => (slots.lookup n).getD .absent⟩

/-- The fields of a record given as an array. -/
def fieldsOfItems? (names : List String) (depth : Nat) (xs : List Raw) : Option Fields :=
  if xs.length ≤ names.length then
    let slots := names.zip xs
    some ⟨depth, fun n => match slots.lookup n with
      | some r => .given r
      | none => .cut⟩
  else none

/-- The fields of a record, given as an object or as an array. -/
def record? (names : List String) : Decoder Fields
  | d + 1, .object ms => (named? ms).bind (fieldsOfMembers? names d)
  | d + 1, .array xs => fieldsOfItems? names d xs
  | _, _ => none

end Raw

namespace Decoder

variable {α : Type}

def text : Decoder String
  | _, .text s => s
  | _, _ => none

def bool : Decoder Bool
  | _, .bool b => some b
  | _, _ => none

/-- A whole number from zero up to a bound. -/
def nat (bound : Nat) : Decoder Nat
  | _, .number (some (.int i)) => if 0 ≤ i ∧ i ≤ bound then some i.toNat else none
  | _, _ => none

def byte : Decoder Nat := nat 0xFF

def word32 : Decoder Nat := nat 0xFFFFFFFF

def word64 : Decoder Nat := nat 0xFFFFFFFFFFFFFFFF

def list (dec : Decoder α) : Decoder (List α)
  | d + 1, .array xs => xs.mapM (dec d)
  | _, _ => none

/-- Any value, in canonical form. -/
def any : Decoder Json := fun d r => r.value? d

/-- The members of an object, in order. -/
def members : Decoder (List (String × Json)) := fun d r =>
  match r.value? d with
  | some (.object ms) => some ms
  | _ => none

/-- One of several named things. -/
def choice (table : List (String × α)) : Decoder α
  | _, .text (some s) => table.lookup s
  | _ + 1, .object [(some s, .null)] => table.lookup s
  | _, _ => none

/-- Reads a document within the limit on nesting. -/
def document (dec : Decoder α) (r : Raw) : Option α := dec Raw.nesting r

/-- Reads a value that is already in memory, where nesting has no limit. -/
def value (dec : Decoder α) (v : Json) : Option α := dec v.depth v.raw

end Decoder

end ServiceBus
