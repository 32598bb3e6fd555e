import ServiceBus.Decimal.Binary64

/-!
# JSON values

A `Json` is a value as this library writes it. Arrays and objects keep their order. An object that
stands for a map is `Canonical`: its names are strictly increasing, so equal maps are equal values;
`Json.insert` keeps that, and `Json.canonical` brings every object in a value into that form, the
last of several members with one name winning.
-/

namespace ServiceBus

inductive Number where
  | int (i : Int)
  | float (x : Binary64)
  deriving DecidableEq, Repr

inductive Json where
  | null
  | bool (b : Bool)
  | number (n : Number)
  | text (s : String)
  | array (xs : List Json)
  | object (ms : List (String × Json))
  deriving Repr, Inhabited

namespace Json

mutual

def decEq : (a b : Json) → Decidable (a = b)
  | .null, .null => isTrue rfl
  | .bool a, .bool b => if h : a = b then isTrue (h ▸ rfl) else isFalse fun e => h (by injection e)
  | .number a, .number b =>
    if h : a = b then isTrue (h ▸ rfl) else isFalse fun e => h (by injection e)
  | .text a, .text b => if h : a = b then isTrue (h ▸ rfl) else isFalse fun e => h (by injection e)
  | .array a, .array b =>
    match decEqItems a b with
    | isTrue h => isTrue (h ▸ rfl)
    | isFalse h => isFalse fun e => h (by injection e)
  | .object a, .object b =>
    match decEqMembers a b with
    | isTrue h => isTrue (h ▸ rfl)
    | isFalse h => isFalse fun e => h (by injection e)
  | .null, .bool _ | .null, .number _ | .null, .text _ | .null, .array _ | .null, .object _
  | .bool _, .null | .bool _, .number _ | .bool _, .text _ | .bool _, .array _ | .bool _, .object _
  | .number _, .null | .number _, .bool _ | .number _, .text _ | .number _, .array _
  | .number _, .object _
  | .text _, .null | .text _, .bool _ | .text _, .number _ | .text _, .array _ | .text _, .object _
  | .array _, .null | .array _, .bool _ | .array _, .number _ | .array _, .text _
  | .array _, .object _
  | .object _, .null | .object _, .bool _ | .object _, .number _ | .object _, .text _
  | .object _, .array _ => isFalse nofun

def decEqItems : (a b : List Json) → Decidable (a = b)
  | [], [] => isTrue rfl
  | x :: xs, y :: ys =>
    match decEq x y, decEqItems xs ys with
    | isTrue h, isTrue k => isTrue (h ▸ k ▸ rfl)
    | isFalse h, _ => isFalse fun e => h (by injection e)
    | _, isFalse h => isFalse fun e => h (by injection e)
  | [], _ :: _ | _ :: _, [] => isFalse nofun

def decEqMembers : (a b : List (String × Json)) → Decidable (a = b)
  | [], [] => isTrue rfl
  | (k, x) :: xs, (l, y) :: ys =>
    if hk : k = l then
      match decEq x y, decEqMembers xs ys with
      | isTrue h, isTrue r => isTrue (hk ▸ h ▸ r ▸ rfl)
      | isFalse h, _ => isFalse fun e => h (by injection e with e; injection e)
      | _, isFalse h => isFalse fun e => h (by injection e)
    else isFalse fun e => hk (by injection e with e; injection e)
  | [], _ :: _ | _ :: _, [] => isFalse nofun

end

instance : DecidableEq Json := decEq

/-! ### Members -/

/-- Puts a member into an ordered list of members, replacing one of the same name. -/
def insert (name : String) (v : Json) : List (String × Json) → List (String × Json)
  | [] => [(name, v)]
  | (k, x) :: rest =>
    if name < k then (name, v) :: (k, x) :: rest
    else if name = k then (name, v) :: rest
    else (k, x) :: insert name v rest

/-- The first member of a name. -/
def member? (name : String) : List (String × Json) → Option Json
  | [] => none
  | (k, x) :: rest => if k = name then some x else member? name rest

/-- The member of a name, when the value is an object that has one. -/
def get? (name : String) : Json → Option Json
  | .object ms => member? name ms
  | _ => none

mutual

/-- The value with the members of every object in order, the last of each name winning. -/
def canonical : Json → Json
  | .array xs => .array (canonicalItems xs)
  | .object ms => .object (canonicalMembers [] ms)
  | .null => .null
  | .bool b => .bool b
  | .number n => .number n
  | .text s => .text s

def canonicalItems : List Json → List Json
  | [] => []
  | x :: xs => canonical x :: canonicalItems xs

/-- Adds members in canonical form to `done`. -/
def canonicalMembers (done : List (String × Json)) : List (String × Json) → List (String × Json)
  | [] => done
  | (k, x) :: rest => canonicalMembers (insert k (canonical x) done) rest

end

/-! ### Short forms -/

def int (i : Int) : Json := .number (.int i)

def nat (n : Nat) : Json := .number (.int n)

/-- `null` for nothing. -/
def ofOption {α : Type} (f : α → Json) : Option α → Json
  | none => .null
  | some a => f a

@[simp] theorem member?_insert_self (name : String) (v : Json) (ms : List (String × Json)) :
    member? name (insert name v ms) = some v := by
  induction ms with
  | nil => simp [insert, member?]
  | cons m ms ih =>
    obtain ⟨k, x⟩ := m
    simp only [insert]
    split
    · simp [member?]
    · split
      · simp [member?]
      · next h => simp [member?, Ne.symm h, ih]

theorem member?_insert_of_ne {name other : String} (h : other ≠ name) (v : Json)
    (ms : List (String × Json)) : member? other (insert name v ms) = member? other ms := by
  induction ms with
  | nil => simp [insert, member?, Ne.symm h]
  | cons m ms ih =>
    obtain ⟨k, x⟩ := m
    simp only [insert]
    split
    · simp [member?, Ne.symm h]
    · split
      · next hk => subst hk; simp [member?, Ne.symm h]
      · simp [member?, ih]

end Json

end ServiceBus
