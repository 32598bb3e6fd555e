import ServiceBus.Toml.Scalar

/-!
# Reading TOML documents

A document is cut into statements, one a line, and the statements are put together
(`Toml.assemble`). Arrays may run over several lines, inline tables may not; both nest to a fixed
depth, on which `Toml.value?` recurses. Statements, items and pairs all take up at least one
character, so a document has at most as many of each as it has characters: its length is measured
once and bounds every one of these lists.
-/

namespace ServiceBus.Toml

/-- The items of an array, at most so many, up to its closing bracket; a comma may follow the last
one. -/
def arrayItems? (item : Reader Toml) : Nat → Reader (List Toml)
  | 0, _ => none
  | n + 1, cs =>
    match skipSpace cs with
    | ']' :: rest => some ([], rest)
    | start => do
      let (v, rest) ← item start
      match skipSpace rest with
      | ']' :: rest => some ([v], rest)
      | ',' :: rest => do
        let (vs, rest) ← arrayItems? item n rest
        some (v :: vs, rest)
      | _ => none

def pair? (value : Reader Toml) (cs : List Char) :
    Option ((List String × String × Toml) × List Char) := do
  let ((path, name), rest) ← pathAndName? cs
  let rest ← mark? '=' (skipBlanks rest)
  let (v, rest) ← value (skipBlanks rest)
  some ((path, name, v), rest)

/-- The pairs of an inline table, at most so many, up to its closing brace; no comma may follow the
last one. -/
def inlinePairs? (value : Reader Toml) : Nat → Reader (List (List String × String × Toml))
  | 0, _ => none
  | n + 1, cs => do
    let (p, rest) ← pair? value cs
    match skipBlanks rest with
    | '\x7d' :: rest => some ([p], rest)
    | ',' :: rest => do
      let (ps, rest) ← inlinePairs? value n rest
      some (p :: ps, rest)
    | _ => none

def inlineTable? (ps : List (List String × String × Toml)) : Option Toml := do
  let es ← ps.foldlM (fun es (path, name, v) => Entries.addPair path name v es) []
  some (.table (Node.members es))

/-- A value of a document of `size` characters, with at most so many levels of arrays and inline
tables. -/
def value? (size : Nat) : Nat → Reader Toml
  | 0, cs =>
    match cs with
    | '[' :: _ | '\x7b' :: _ => none
    | _ => scalarValue? cs
  | n + 1, cs =>
    match cs with
    | '[' :: rest => (arrayItems? (value? size n) size rest).map fun (vs, rest) => (.array vs, rest)
    | '\x7b' :: rest =>
      match skipBlanks rest with
      | '\x7d' :: rest => some (.table [], rest)
      | rest => do
        let (ps, rest) ← inlinePairs? (value? size n) size rest
        some (← inlineTable? ps, rest)
    | _ => scalarValue? cs

/-- One statement of a document of `size` characters, its line end included. -/
def statement? (size : Nat) : Reader Statement
  | '[' :: '[' :: cs => do
    let ((path, name), rest) ← pathAndName? cs
    let rest ← mark? ']' rest
    let rest ← mark? ']' rest
    let rest ← lineEnd? rest
    some (.header path name true, rest)
  | '[' :: cs => do
    let ((path, name), rest) ← pathAndName? cs
    let rest ← mark? ']' rest
    let rest ← lineEnd? rest
    some (.header path name false, rest)
  | cs => do
    let ((path, name, v), rest) ← pair? (value? size nesting) cs
    let rest ← lineEnd? rest
    some (.pair path name v, rest)

/-- The statements of a document of `size` characters, at most so many. -/
def statements? (size : Nat) : Nat → List Char → Option (List Statement)
  | 0, cs => if (skipSpace cs).isEmpty then some [] else none
  | n + 1, cs =>
    match skipSpace cs with
    | [] => some []
    | start => do
      let (s, rest) ← statement? size start
      let ss ← statements? size n rest
      some (s :: ss)

/-- Skips a byte order mark at the start of a document. -/
def skipMark : List Char → List Char
  | '\ufeff' :: cs => cs
  | cs => cs

def parse? (s : String) : Option Toml := do
  let cs := skipMark s.toList
  let ss ← statements? cs.length cs.length cs
  assemble ss

end ServiceBus.Toml
