/-!
# TOML values

A `Toml` value is what a document says once its tables are put together. A double-precision number
or a point in time is kept only as such, because nothing here reads one. `Entries` are the contents
of a table while a document is read: each sub-table remembers whether it was only implied by a
longer name and whether a dotted key made it, which decides what may still be added to it.
-/

namespace ServiceBus

inductive Toml where
  | text (s : String)
  | int (i : Int)
  | float
  | bool (b : Bool)
  | datetime
  | array (xs : List Toml)
  | table (ms : List (String × Toml))
  deriving Repr, Inhabited

namespace Toml

/-- What stands under a name in a table that is being read. -/
inductive Node where
  | leaf (v : Toml)
  /-- A table: whether it is only implied, whether a dotted key made it, and its contents. -/
  | table (implied dotted : Bool) (entries : List (String × Node))
  /-- The tables of an array of tables, in order. -/
  | tables (items : List (List (String × Node)))
  deriving Inhabited

abbrev Entries := List (String × Node)

namespace Entries

def get? (name : String) : Entries → Option Node
  | [] => none
  | (k, n) :: rest => if k = name then some n else get? name rest

/-- Replaces what stands under a name, or adds it at the end. -/
def put (name : String) (n : Node) : Entries → Entries
  | [] => [(name, n)]
  | (k, m) :: rest => if k = name then (name, n) :: rest else (k, m) :: put name n rest

def erase (name : String) (es : Entries) : Entries := es.filter fun e => e.1 ≠ name

/-- Changes the table at the end of a path, making the tables on the way that are not there. The
change learns whether a dotted key made that table. On the way, a value cannot be entered, of an
array of tables the last one is, and a dotted key enters only what is implied. -/
def descend (dotted : Bool) (change : Bool → Entries → Option Entries) :
    List String → Bool → Entries → Option Entries
  | [], made, es => change made es
  | k :: path, _, es =>
    match get? k es with
    | none => do
      let sub ← descend dotted change path dotted []
      some (put k (.table true dotted sub) es)
    | some (.leaf _) => none
    | some (.tables items) =>
      match items.getLast? with
      | none => none
      | some last => do
        let sub ← descend dotted change path false last
        some (put k (.tables (items.dropLast ++ [sub])) es)
    | some (.table implied made sub) =>
      if dotted && !implied then none
      else do
        let sub ← descend dotted change path made sub
        some (put k (.table implied made sub) es)

/-- Adds a value under a dotted key whose last part is `name`. -/
def addPair (path : List String) (name : String) (v : Toml) (es : Entries) : Option Entries :=
  descend true (fun made es =>
    if made == path.isEmpty then none
    else if (get? name es).isSome then none
    else some (put name (.leaf v) es)) path false es

end Entries

mutual

def Node.value : Node → Toml
  | .leaf v => v
  | .table _ _ es => .table (Node.members es)
  | .tables items => .array (Node.items items)

def Node.members : List (String × Node) → List (String × Toml)
  | [] => []
  | (k, n) :: rest => (k, n.value) :: Node.members rest

def Node.items : List (List (String × Node)) → List Toml
  | [] => []
  | es :: rest => .table (Node.members es) :: Node.items rest

end

/-! ### Documents -/

/-- One line of a document that says something. -/
inductive Statement where
  /-- A value under a dotted key with these parts before the last. -/
  | pair (path : List String) (name : String) (v : Toml)
  /-- A header; the path before the last name, the name, and whether it adds to an array. -/
  | header (path : List String) (name : String) (adds : Bool)

/-- A document while its statements are taken in: the finished part, the table that is open, and
where it belongs. -/
structure Assembly where
  root : Entries
  current : Entries
  place : Option (List String × String × Bool)

namespace Assembly

/-- Nothing taken in yet; the root table is open. -/
def start : Assembly := ⟨[], [], none⟩

/-- Puts the open table where it belongs. -/
def close (a : Assembly) : Option Entries :=
  match a.place with
  | none => some a.current
  | some (path, name, true) =>
    Entries.descend false (fun _ es =>
      match Entries.get? name es with
      | none => some (Entries.put name (.tables [a.current]) es)
      | some (.tables items) => some (Entries.put name (.tables (items ++ [a.current])) es)
      | some _ => none) path false a.root
  | some (path, name, false) =>
    Entries.descend false (fun _ es =>
      match Entries.get? name es with
      | none => some (Entries.put name (.table false false a.current) es)
      | some (.table true _ _) => some (Entries.put name (.table false false a.current) es)
      | some _ => none) path false a.root

/-- Opens the table of a header. What was implied of it before becomes its first contents; anything
else under its name is a table defined twice. -/
def openTable (root : Entries) (path : List String) (name : String) : Option Assembly := do
  let parent ← Entries.descend false (fun _ es => some es) path false root
  let found := lookup path parent
  match found with
  | none => some ⟨parent, [], some (path, name, false)⟩
  | some (.table true false sub) =>
    let root ← Entries.descend false (fun _ es => some (Entries.erase name es)) path false parent
    some ⟨root, sub, some (path, name, false)⟩
  | some _ => none
where
  /-- What stands at the end of the path under the header's name. -/
  lookup : List String → Entries → Option Node
    | [], es => Entries.get? name es
    | k :: rest, es =>
      match Entries.get? k es with
      | some (.table _ _ sub) => lookup rest sub
      | some (.tables items) => items.getLast? >>= lookup rest
      | _ => none

/-- Opens one more table of an array of tables. -/
def openItem (root : Entries) (path : List String) (name : String) : Option Assembly := do
  let root ← Entries.descend false (fun _ es =>
    match Entries.get? name es with
    | none => some es
    | some (.tables _) => some es
    | some _ => none) path false root
  some ⟨root, [], some (path, name, true)⟩

def step (a : Assembly) : Statement → Option Assembly
  | .pair path name v => do
    let current ← Entries.addPair path name v a.current
    some { a with current }
  | .header path name adds => do
    let root ← a.close
    if adds then openItem root path name else openTable root path name

end Assembly

def assemble (ss : List Statement) : Option Toml := do
  let a ← ss.foldlM Assembly.step .start
  let root ← a.close
  some (.table (Node.members root))

end Toml

end ServiceBus
