import ServiceBus.Name

/-!
# Names that are read back from what is shown of them

A name is shown without any escaping and read in one of three notations, so not every name is read
back. One with a namespace is, unless a closing brace in the namespace ends it too early; one without
is, unless its local part looks like one of the two notations that have a namespace (`IsBraced`,
`IsFragment`). These are all the exceptions (`parse_display_eq_iff`).
-/

namespace ServiceBus.QualifiedName
variable {c : Char} {cs as bs : List Char}

/-! ### Splitting -/

theorem splitFirst?_append (h : c ∉ as) : splitFirst? c (as ++ c :: bs) = some (as, bs) := by
  induction as with
  | nil => simp [splitFirst?]
  | cons a as ih =>
    rw [List.mem_cons, not_or] at h
    rw [List.cons_append, splitFirst?, if_neg (Ne.symm h.1), ih h.2]
    rfl

theorem splitFirst?_of_not_mem (h : c ∉ cs) : splitFirst? c cs = none := by
  induction cs with
  | nil => rfl
  | cons x xs ih =>
    rw [List.mem_cons, not_or] at h
    rw [splitFirst?, if_neg (Ne.symm h.1), ih h.2]
    rfl

theorem splitLast?_of_not_mem (h : c ∉ cs) : splitLast? c cs = none := by
  induction cs with
  | nil => rfl
  | cons x xs ih =>
    rw [List.mem_cons, not_or] at h
    rw [splitLast?, ih h.2]
    exact if_neg (Ne.symm h.1)

theorem splitLast?_append (as : List Char) (h : c ∉ bs) :
    splitLast? c (as ++ c :: bs) = some (as, bs) := by
  induction as with
  | nil =>
    rw [List.nil_append, splitLast?, splitLast?_of_not_mem h]
    exact if_pos rfl
  | cons a as ih => rw [List.cons_append, splitLast?, ih]

theorem exists_last_of_mem (h : c ∈ cs) : ∃ as bs, cs = as ++ c :: bs ∧ c ∉ bs := by
  obtain ⟨as, bs, e, ha⟩ := List.eq_append_cons_of_mem (List.mem_reverse.2 h)
  refine ⟨bs.reverse, as.reverse, List.reverse_inj.1 ?_, by rwa [List.mem_reverse]⟩
  simp [e]

/-! ### The notations with a namespace -/

/-- A brace opens at the start, and one closes later. -/
def IsBraced (cs : List Char) : Prop := ∃ rest, cs = '\x7b' :: rest ∧ '\x7d' ∈ rest

/-- There is a number sign, and the last one stands beyond the first character. -/
def IsFragment (cs : List Char) : Prop := ∃ as bs, cs = as ++ '#' :: bs ∧ '#' ∉ bs ∧ as ≠ []

theorem ofChars_braces (h : '\x7d' ∉ as) :
    ofChars ('\x7b' :: (as ++ '\x7d' :: bs)) = ⟨String.ofList as, String.ofList bs⟩ := by
  rw [ofChars, splitFirst?_append h]

theorem ofChars_of_not_isBraced (h : ¬ IsBraced cs) : ofChars cs = ofFragment cs := by
  unfold ofChars
  split
  · next rest =>
    rw [splitFirst?_of_not_mem fun closes => h ⟨rest, rfl, closes⟩]
  · rfl

theorem ofFragment_of_isFragment (h : IsFragment cs) : (ofFragment cs).space ≠ "" := by
  obtain ⟨as, bs, rfl, last, ne⟩ := h
  obtain ⟨a, as, rfl⟩ := List.exists_cons_of_ne_nil ne
  rw [ofFragment, splitLast?_append _ last]
  simp

theorem ofFragment_of_not_isFragment (h : ¬ IsFragment cs) :
    ofFragment cs = bare (String.ofList cs) := by
  unfold ofFragment
  by_cases sign : '#' ∈ cs
  · obtain ⟨as, bs, rfl, last⟩ := exists_last_of_mem sign
    cases as with
    | nil => rw [splitLast?_append _ last]
    | cons a as => exact absurd ⟨a :: as, bs, rfl, last, List.cons_ne_nil a as⟩ h
  · rw [splitLast?_of_not_mem sign]

/-- Read as a bare local part is what has neither of the notations with a namespace. -/
theorem ofChars_eq_bare_iff :
    ofChars cs = bare (String.ofList cs) ↔ ¬ IsBraced cs ∧ ¬ IsFragment cs := by
  constructor
  · intro h
    have unbraced : ¬ IsBraced cs := by
      rintro ⟨rest, rfl, closes⟩
      obtain ⟨as, bs, rfl, first⟩ := List.eq_append_cons_of_mem closes
      rw [ofChars_braces first] at h
      -- what stands behind the closing brace is shorter than the whole
      have same := congrArg (·.localPart.toList.length) h
      simp only [bare, String.toList_ofList, List.length_cons, List.length_append] at same
      omega
    refine ⟨unbraced, fun fragment => ofFragment_of_isFragment fragment ?_⟩
    rw [← ofChars_of_not_isBraced unbraced, h]
    rfl
  · rintro ⟨unbraced, whole⟩
    rw [ofChars_of_not_isBraced unbraced, ofFragment_of_not_isFragment whole]

/-! ### What is shown -/

theorem toList_display {n : QualifiedName} (h : n.space ≠ "") :
    n.display.toList = '\x7b' :: (n.space.toList ++ '\x7d' :: n.localPart.toList) := by
  simp [display, h]

/-- With a namespace a name is read back unless a brace in the namespace closes too early. -/
theorem parse_display_eq_iff_of_space {n : QualifiedName} (h : n.space ≠ "") :
    parse n.display = n ↔ '\x7d' ∉ n.space.toList := by
  rw [parse, toList_display h]
  constructor
  · intro same closes
    obtain ⟨as, bs, e, first⟩ := List.eq_append_cons_of_mem closes
    rw [e, List.append_assoc, List.cons_append, ofChars_braces first] at same
    have space : as = n.space.toList := by
      rw [← congrArg space same, String.toList_ofList]
    exact first (space ▸ closes)
  · intro whole
    rw [ofChars_braces whole]
    simp

theorem parse_display_eq_iff_of_bare {n : QualifiedName} (h : n.space = "") :
    parse n.display = n ↔ ¬ IsBraced n.localPart.toList ∧ ¬ IsFragment n.localPart.toList := by
  have same : bare (String.ofList n.localPart.toList) = n := by
    rw [String.ofList_toList, bare, ← h]
  rw [← ofChars_eq_bare_iff, same, parse, display, if_pos h]

/-- Which names are read back from what is shown of them. -/
theorem parse_display_eq_iff (n : QualifiedName) :
    parse n.display = n ↔
      (n.space ≠ "" ∧ '\x7d' ∉ n.space.toList) ∨
      (n.space = "" ∧ ¬ IsBraced n.localPart.toList ∧ ¬ IsFragment n.localPart.toList) := by
  by_cases h : n.space = ""
  · simp [h, parse_display_eq_iff_of_bare h]
  · simp [h, parse_display_eq_iff_of_space h]

/-- A name without a namespace can be read as one with a namespace, whatever is shown of it. -/
example : parse (bare "a#b").display = ⟨"a", "b"⟩ := by decide

end ServiceBus.QualifiedName
