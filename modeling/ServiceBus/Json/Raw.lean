import ServiceBus.Json.Basic

/-!
# Read JSON

A `Raw` value is what a JSON document says, before anyone has asked for a type. It keeps members in
order, repeated names included. A text that is no sequence of characters (half of a surrogate pair,
a stray byte) and a number that no double can hold are kept as `none`: they are an error only where
the value is wanted. `Raw.value? depth` is the value wanted as it stands, with at most `depth`
levels of arrays and objects.
-/

namespace ServiceBus

/-- What a JSON document says. -/
inductive Raw where
  | null
  | bool (b : Bool)
  | number (n : Option Number)
  | text (s : Option String)
  | array (xs : List Raw)
  | object (ms : List (Option String × Raw))
  deriving Repr, Inhabited

namespace Raw

/-- How many levels of arrays and objects a document may nest where its values are wanted. -/
def nesting : Nat := 127

mutual

/-- The value in canonical form, if every part of it can be kept and it nests at most `depth`
levels. -/
def value? (depth : Nat) : Raw → Option Json
  | .null => some .null
  | .bool b => some (.bool b)
  | .number n => n.map .number
  | .text s => s.map .text
  | .array xs =>
    match depth with
    | 0 => none
    | d + 1 => (items? d xs).map .array
  | .object ms =>
    match depth with
    | 0 => none
    | d + 1 => (members? d [] ms).map .object

/-- The values of an array's items. -/
def items? (depth : Nat) : List Raw → Option (List Json)
  | [] => some []
  | x :: xs => do
    let v ← value? depth x
    let vs ← items? depth xs
    some (v :: vs)

/-- Adds the values of members to `done`, the last of each name winning. -/
def members? (depth : Nat) (done : List (String × Json)) :
    List (Option String × Raw) → Option (List (String × Json))
  | [] => some done
  | (k, x) :: rest => do
    let name ← k
    let v ← value? depth x
    members? depth (Json.insert name v done) rest

end

end Raw

namespace Json

mutual

/-- What the written form of a value says. -/
def raw : Json → Raw
  | .null => .null
  | .bool b => .bool b
  | .number n => .number (some n)
  | .text s => .text (some s)
  | .array xs => .array (rawItems xs)
  | .object ms => .object (rawMembers ms)

def rawItems : List Json → List Raw
  | [] => []
  | x :: xs => raw x :: rawItems xs

def rawMembers : List (String × Json) → List (Option String × Raw)
  | [] => []
  | (k, x) :: rest => (some k, raw x) :: rawMembers rest

end

mutual

/-- How many levels of arrays and objects a value nests. -/
def depth : Json → Nat
  | .array xs => depthItems xs + 1
  | .object ms => depthMembers ms + 1
  | .null | .bool _ | .number _ | .text _ => 0

def depthItems : List Json → Nat
  | [] => 0
  | x :: xs => max (depth x) (depthItems xs)

def depthMembers : List (String × Json) → Nat
  | [] => 0
  | (_, x) :: rest => max (depth x) (depthMembers rest)

end

end Json

end ServiceBus
