/-!
# Tables

A `Table κ α` holds values under distinct keys, in the order in which the keys came in. The view of
a table is `get?`; `get?_insert` and `get?_erase` say what the two writes do to it, so nothing else
has to look inside.
-/

namespace ServiceBus

structure Table (κ α : Type) where
  entries : List (κ × α)
  distinct : (entries.map Prod.fst).Nodup

namespace Table

variable {κ α : Type}

def empty : Table κ α := ⟨[], List.nodup_nil⟩

instance : Inhabited (Table κ α) := ⟨empty⟩

instance [Repr κ] [Repr α] : Repr (Table κ α) := ⟨fun t n => reprPrec t.entries n⟩

/-- The keys, oldest first. -/
def keys (t : Table κ α) : List κ := t.entries.map Prod.fst

/-- The values, oldest key first. -/
def values (t : Table κ α) : List α := t.entries.map Prod.snd

def size (t : Table κ α) : Nat := t.entries.length

def isEmpty (t : Table κ α) : Bool := t.entries.isEmpty

variable [DecidableEq κ]

def find? (k : κ) : List (κ × α) → Option α
  | [] => none
  | (x, a) :: rest => if x = k then some a else find? k rest

def get? (t : Table κ α) (k : κ) : Option α := find? k t.entries

def contains (t : Table κ α) (k : κ) : Bool := (t.get? k).isSome

/-- Replaces the value of a key in place, or adds an entry at the end. -/
def put (k : κ) (a : α) : List (κ × α) → List (κ × α)
  | [] => [(k, a)]
  | (x, b) :: rest => if x = k then (k, a) :: rest else (x, b) :: put k a rest

theorem mem_keys_put (k x : κ) (a : α) (l : List (κ × α)) :
    x ∈ (put k a l).map Prod.fst ↔ x = k ∨ x ∈ l.map Prod.fst := by
  induction l with
  | nil => simp [put]
  | cons e l ih =>
    obtain ⟨y, b⟩ := e
    simp only [put]
    split
    · next h => subst h; simp
    · simp only [List.map_cons, List.mem_cons, ih]
      constructor <;> rintro (h | h | h) <;> simp [h]

theorem nodup_put (k : κ) (a : α) {l : List (κ × α)} (h : (l.map Prod.fst).Nodup) :
    ((put k a l).map Prod.fst).Nodup := by
  induction l with
  | nil => simp [put]
  | cons e l ih =>
    obtain ⟨y, b⟩ := e
    rw [List.map_cons, List.nodup_cons] at h
    simp only [put]
    split
    · next e => subst e; simpa using h
    · next e =>
      rw [List.map_cons, List.nodup_cons]
      refine ⟨?_, ih h.2⟩
      rw [mem_keys_put]
      rintro (hy | hy)
      · exact e hy
      · exact h.1 hy

def insert (t : Table κ α) (k : κ) (a : α) : Table κ α :=
  ⟨put k a t.entries, nodup_put k a t.distinct⟩

def filter (t : Table κ α) (p : κ → α → Bool) : Table κ α :=
  ⟨t.entries.filter fun e => p e.1 e.2,
    List.Nodup.sublist (List.filter_sublist.map Prod.fst) t.distinct⟩

def erase (t : Table κ α) (k : κ) : Table κ α := t.filter fun x _ => x ≠ k

/-! ### The view -/

@[simp] theorem get?_empty (k : κ) : (empty : Table κ α).get? k = none := rfl

theorem find?_put (k x : κ) (a : α) (l : List (κ × α)) :
    find? x (put k a l) = if x = k then some a else find? x l := by
  induction l with
  | nil => simp [put, find?, eq_comm (a := k)]
  | cons e l ih =>
    obtain ⟨y, b⟩ := e
    simp only [put]
    split
    · next h => subst h; by_cases hx : y = x <;> simp [find?, hx, eq_comm (a := x)]
    · next h =>
      simp only [find?, ih]
      by_cases hy : y = x
      · subst hy; simp [h]
      · simp [hy]

theorem get?_insert (t : Table κ α) (k x : κ) (a : α) :
    (t.insert k a).get? x = if x = k then some a else t.get? x :=
  find?_put k x a t.entries

@[simp] theorem get?_insert_self (t : Table κ α) (k : κ) (a : α) :
    (t.insert k a).get? k = some a := by simp [get?_insert]

theorem get?_insert_of_ne (t : Table κ α) {k x : κ} (h : x ≠ k) (a : α) :
    (t.insert k a).get? x = t.get? x := by simp [get?_insert, h]

theorem find?_filter_ne (k x : κ) (l : List (κ × α)) :
    find? x (l.filter fun e => decide (e.1 ≠ k)) = if x = k then none else find? x l := by
  induction l with
  | nil => simp [find?]
  | cons e l ih =>
    obtain ⟨y, b⟩ := e
    by_cases hy : y = k
    · subst hy
      rw [List.filter_cons_of_neg (by simp), ih]
      by_cases hx : x = y
      · simp [hx]
      · simp [hx, find?, Ne.symm hx]
    · rw [List.filter_cons_of_pos (by simpa using hy)]
      simp only [find?, ih]
      by_cases hx : y = x
      · subst hx; simp [hy]
      · simp [hx]

theorem get?_erase (t : Table κ α) (k x : κ) :
    (t.erase k).get? x = if x = k then none else t.get? x :=
  find?_filter_ne k x t.entries

@[simp] theorem get?_erase_self (t : Table κ α) (k : κ) : (t.erase k).get? k = none := by
  simp [get?_erase]

theorem get?_erase_of_ne (t : Table κ α) {k x : κ} (h : x ≠ k) :
    (t.erase k).get? x = t.get? x := by simp [get?_erase, h]

theorem find?_eq_some_iff {l : List (κ × α)} (hl : (l.map Prod.fst).Nodup) {k : κ} {a : α} :
    find? k l = some a ↔ (k, a) ∈ l := by
  induction l with
  | nil => simp [find?]
  | cons e l ih =>
    obtain ⟨y, b⟩ := e
    rw [List.map_cons, List.nodup_cons] at hl
    simp only [find?, List.mem_cons, Prod.mk.injEq]
    split
    · next h =>
      subst h
      constructor
      · intro h; injection h with h; exact .inl ⟨rfl, h.symm⟩
      · rintro (⟨-, rfl⟩ | h)
        · rfl
        · exact absurd (List.mem_map_of_mem (f := Prod.fst) h) hl.1
    · next h =>
      rw [ih hl.2]
      constructor
      · exact .inr
      · rintro (⟨rfl, -⟩ | h')
        · exact absurd rfl h
        · exact h'

theorem get?_eq_some_iff (t : Table κ α) {k : κ} {a : α} :
    t.get? k = some a ↔ (k, a) ∈ t.entries :=
  find?_eq_some_iff t.distinct

theorem mem_values_iff (t : Table κ α) {a : α} : a ∈ t.values ↔ ∃ k, t.get? k = some a := by
  simp [values, get?_eq_some_iff]

theorem mem_keys_iff (t : Table κ α) {k : κ} : k ∈ t.keys ↔ ∃ a, t.get? k = some a := by
  simp [keys, get?_eq_some_iff]

end Table

end ServiceBus
