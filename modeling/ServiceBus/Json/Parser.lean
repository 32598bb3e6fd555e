import ServiceBus.Json.Token

/-!
# Reading JSON documents

The reader takes one token at a time and keeps the arrays and objects that are still open on a
stack (`Reader.step`), so it needs no bound on nesting. `Raw.parse?` accepts exactly one value with
blanks around it.
-/

namespace ServiceBus.Json

/-- An array or object that is still open; its parts so far, last first. -/
inductive Frame where
  | array (done : List Raw)
  | object (done : List (Option String × Raw))
  /-- An object whose next member has its name but no value yet. -/
  | member (done : List (Option String × Raw)) (name : Option String)

/-- What the reader waits for. -/
inductive Expect where
  | value
  /-- The first item of an array, or its end. -/
  | firstItem
  /-- The first name of an object, or its end. -/
  | firstName
  | name
  | colon
  /-- After a part: a comma, or the end of the array or object. -/
  | after
  | finished (r : Raw)

/-- The reader's state. -/
structure Reader where
  stack : List Frame
  expect : Expect

namespace Reader

def start : Reader := ⟨[], .value⟩

/-- Hands a complete value to the innermost open array or object. -/
def complete (stack : List Frame) (r : Raw) : Option Reader :=
  match stack with
  | [] => some ⟨[], .finished r⟩
  | .array done :: rest => some ⟨.array (r :: done) :: rest, .after⟩
  | .member done name :: rest => some ⟨.object ((name, r) :: done) :: rest, .after⟩
  | .object _ :: _ => none

/-- A token where a value may start. -/
def value (stack : List Frame) : Token → Option Reader
  | .scalar r => complete stack r
  | .openArray => some ⟨.array [] :: stack, .firstItem⟩
  | .openObject => some ⟨.object [] :: stack, .firstName⟩
  | _ => none

/-- A token where a name must come. -/
def name (stack : List Frame) (t : Token) : Option Reader :=
  match stack, t with
  | .object done :: rest, .scalar (.text k) => some ⟨.member done k :: rest, .colon⟩
  | _, _ => none

/-- Closes the innermost open array or object. -/
def close (stack : List Frame) (t : Token) : Option Reader :=
  match stack, t with
  | .array done :: rest, .closeArray => complete rest (.array done.reverse)
  | .object done :: rest, .closeObject => complete rest (.object done.reverse)
  | _, _ => none

def step (s : Reader) (t : Token) : Option Reader :=
  match s.expect, t with
  | .value, t => value s.stack t
  | .firstItem, .closeArray => close s.stack .closeArray
  | .firstItem, t => value s.stack t
  | .firstName, .closeObject => close s.stack .closeObject
  | .firstName, t => name s.stack t
  | .name, t => name s.stack t
  | .colon, .colon => some ⟨s.stack, .value⟩
  | .after, .comma =>
    match s.stack with
    | .array _ :: _ => some ⟨s.stack, .value⟩
    | .object _ :: _ => some ⟨s.stack, .name⟩
    | _ => none
  | .after, t => close s.stack t
  | _, _ => none

end Reader

end ServiceBus.Json

namespace ServiceBus.Raw

/-- What a document says, if it is one JSON value. -/
def parse? (d : Document) : Option Raw := do
  let tokens ← Json.Token.scan d
  let final ← tokens.foldlM Json.Reader.step Json.Reader.start
  match final.expect with
  | .finished r => some r
  | _ => none

end ServiceBus.Raw

namespace ServiceBus.Json

/-- The value a document holds, within the limits on nesting and numbers. -/
def parse? (d : Document) : Option Json := (Raw.parse? d).bind (Raw.value? Raw.nesting)

end ServiceBus.Json
