import ServiceBus.Files.Path
import ServiceBus.Store.Directory

/-!
# The names of record files

Every id has a record file of its own and every write a temporary file of its own
(`recordName_injective`, `temporaryName_injective`), and no record file is ever a temporary one. All
these names are plain (`PlainName`): a path that ends with one leads to a file directly inside of
the directory that the rest of the path names.
-/

namespace ServiceBus

/-! ### Percent encoding -/

namespace Percent

/-- Whether the character may stand in what is encoded. -/
def isSafe (c : Char) : Bool := c.isAlphanum || c = '-' || c = '_' || c = '%'

/-- Reads back what `byte` writes. -/
def readByte : List Char → Option (UInt8 × List Char)
  | '%' :: h :: l :: rest => do
    let x ← Hex.value? h
    let y ← Hex.value? l
    some (UInt8.ofNat (x * 16 + y), rest)
  | c :: rest => some (UInt8.ofNat c.toNat, rest)
  | [] => none

theorem value?_digit {n : Nat} (h : n < 16) : Hex.value? (digit n) = some n := by
  revert n
  decide

theorem isSafe_digit {n : Nat} (h : n < 16) : isSafe (digit n) = true := by
  revert n
  decide

theorem isSafe_of_isKept {n : Nat} (h : n < 256) (kept : isKept (UInt8.ofNat n) = true) :
    isSafe (Char.ofNat n) = true ∧ Char.ofNat n ≠ '%' ∧ (Char.ofNat n).toNat = n := by
  revert n
  decide +kernel

theorem byte_cases (b : UInt8) :
    (∃ c, byte b = [c] ∧ isSafe c = true ∧ c ≠ '%' ∧ UInt8.ofNat c.toNat = b) ∨
    (b.toNat / 16 < 16 ∧ b.toNat % 16 < 16 ∧
      byte b = ['%', digit (b.toNat / 16), digit (b.toNat % 16)]) := by
  have hb : b.toNat < 256 := b.toNat_lt
  unfold byte
  split
  · next kept =>
    have hk := isSafe_of_isKept hb (by rwa [UInt8.ofNat_toNat])
    exact .inl ⟨_, rfl, hk.1, hk.2.1, by rw [hk.2.2, UInt8.ofNat_toNat]⟩
  · exact .inr ⟨by omega, by omega, rfl⟩

theorem readByte_byte (b : UInt8) (rest : List Char) :
    readByte (byte b ++ rest) = some (b, rest) := by
  obtain ⟨c, e, -, hc, hb⟩ | ⟨high, low, e⟩ := byte_cases b <;> rw [e]
  · have hr : readByte (c :: rest) = some (UInt8.ofNat c.toNat, rest) := by
      unfold readByte
      split
      · next h => cases h; exact absurd rfl hc
      · next h => cases h; rfl
      · next h => cases h
    rw [List.singleton_append, hr, hb]
  · have hb : b.toNat / 16 * 16 + b.toNat % 16 = b.toNat := by omega
    simp only [List.cons_append, List.nil_append, readByte, value?_digit high, value?_digit low,
      Option.bind_eq_bind, Option.bind_some, hb, UInt8.ofNat_toNat]

theorem flatMap_byte_inj {bs cs : List UInt8} (h : bs.flatMap byte = cs.flatMap byte) :
    bs = cs := by
  induction bs generalizing cs with
  | nil =>
    cases cs with
    | nil => rfl
    | cons c cs =>
      have hr := readByte_byte c (cs.flatMap byte)
      rw [← List.flatMap_cons, ← h] at hr
      cases hr
  | cons b bs ih =>
    have hr := readByte_byte b (bs.flatMap byte)
    rw [← List.flatMap_cons, h] at hr
    cases cs with
    | nil => cases hr
    | cons c cs =>
      rw [List.flatMap_cons, readByte_byte] at hr
      injection hr with hr
      injection hr with hc hr
      rw [hc, ih hr.symm]

theorem encode_injective {s t : String} (h : encode s = encode t) : s = t := by
  have hl := flatMap_byte_inj (String.ofList_injective h)
  refine String.toByteArray_inj.1 (ByteArray.ext (Array.toList_inj.1 hl))

theorem isSafe_of_mem_encode {s : String} {c : Char} (h : c ∈ (encode s).toList) :
    isSafe c = true := by
  simp only [encode, String.toList_ofList, List.mem_flatMap] at h
  obtain ⟨b, -, hc⟩ := h
  obtain ⟨k, e, hk, -⟩ | ⟨high, low, e⟩ := byte_cases b <;> rw [e] at hc
  · rwa [List.mem_singleton.1 hc]
  · simp only [List.mem_cons, List.not_mem_nil, or_false] at hc
    rcases hc with rfl | rfl | rfl
    · rfl
    · exact isSafe_digit high
    · exact isSafe_digit low

end Percent

/-! ### Hexadecimal numbers -/

namespace Hex

/-- The number that digits spell. -/
def number (cs : List Char) : Nat := cs.foldl (fun n c => n * 16 + (value? c).getD 0) 0

theorem digitChar_cases {n : Nat} (h : n < 16) :
    value? n.digitChar = some n ∧ Percent.isSafe n.digitChar = true := by
  revert n
  decide

theorem number_plain (n : Nat) : number (plain n) = n := by
  induction n using Nat.strongRecOn with
  | ind n ih =>
    unfold plain at ih ⊢
    rw [Nat.toDigits_eq_if (by decide)]
    split
    · next h => simp [number, digitChar_cases h]
    · next h =>
      have hd : n / 16 < n := by omega
      have hr : n % 16 < 16 := by omega
      have hi := ih _ hd
      rw [number] at hi
      rw [number, List.foldl_append, hi]
      simp only [List.foldl_cons, List.foldl_nil, digitChar_cases hr, Option.getD_some]
      omega

theorem number_digits (width n : Nat) : number (digits width n) = n := by
  have hz (k : Nat) :
      (List.replicate k '0').foldl (fun n c => n * 16 + (value? c).getD 0) 0 = 0 := by
    induction k with
    | zero => rfl
    | succ k ih => exact ih
  rw [digits, number, List.foldl_append, hz]
  exact number_plain n

theorem digits_injective {width m n : Nat} (h : digits width m = digits width n) : m = n := by
  rw [← number_digits width m, h, number_digits]

theorem isSafe_of_mem_plain {n : Nat} {c : Char} (h : c ∈ plain n) : Percent.isSafe c = true := by
  induction n using Nat.strongRecOn with
  | ind n ih =>
    unfold plain at ih h
    rw [Nat.toDigits_eq_if (by decide)] at h
    split at h
    · next hn =>
      rw [List.mem_singleton.1 h]
      exact (digitChar_cases hn).2
    · rcases List.mem_append.1 h with h | h
      · exact ih _ (by omega) h
      · rw [List.mem_singleton.1 h]
        exact (digitChar_cases (Nat.mod_lt n (by decide))).2

theorem isSafe_of_mem_digits {width n : Nat} {c : Char} (h : c ∈ digits width n) :
    Percent.isSafe c = true := by
  rcases List.mem_append.1 h with h | h
  · rw [List.eq_of_mem_replicate h]
    rfl
  · exact isSafe_of_mem_plain h

end Hex

/-! ### Names -/

/-- The name can stand for something directly inside of a directory. -/
structure PlainName (n : String) : Prop where
  no_slash : '/' ∉ n.toList
  ne_nil : n.toList ≠ []
  ne_here : n ≠ "."
  ne_above : n ≠ ".."

theorem toList_recordName (id : String) :
    (recordName id).toList = (Percent.encode id).toList ++ ['.', 'j', 's', 'o', 'n'] := by
  simp [recordName]

theorem toList_temporaryName (id : String) (mark : Nat) :
    (temporaryName id mark).toList = '.' :: ((Percent.encode id).toList ++
      '.' :: (Hex.digits 16 mark ++ ['.', 't', 'm', 'p'])) := by
  simp [temporaryName]

theorem recordName_injective {i j : String} (h : recordName i = recordName j) : i = j := by
  have hl := congrArg String.toList h
  rw [toList_recordName, toList_recordName, List.append_cancel_right_eq] at hl
  exact Percent.encode_injective (String.toList_inj.1 hl)

/-- Where the first point stands tells what is in front of it. -/
theorem append_point_inj {xs ys us vs : List Char} (hx : '.' ∉ xs) (hy : '.' ∉ ys)
    (h : xs ++ '.' :: us = ys ++ '.' :: vs) : xs = ys ∧ us = vs := by
  induction xs generalizing ys with
  | nil =>
    cases ys with
    | nil => exact ⟨rfl, (List.cons.inj h).2⟩
    | cons y ys => exact absurd (List.mem_cons.2 (.inl (List.cons.inj h).1)) hy
  | cons x xs ih =>
    cases ys with
    | nil => exact absurd (List.mem_cons.2 (.inl (List.cons.inj h).1.symm)) hx
    | cons y ys =>
      obtain ⟨rfl, htail⟩ := List.cons.inj h
      obtain ⟨rfl, hrest⟩ := ih (fun hm => hx (.tail _ hm)) (fun hm => hy (.tail _ hm)) htail
      exact ⟨rfl, hrest⟩

theorem point_not_mem_encode (id : String) : '.' ∉ (Percent.encode id).toList :=
  fun h => by cases Percent.isSafe_of_mem_encode h

theorem slash_not_mem_encode (id : String) : '/' ∉ (Percent.encode id).toList :=
  fun h => by cases Percent.isSafe_of_mem_encode h

theorem slash_not_mem_digits (width n : Nat) : '/' ∉ Hex.digits width n :=
  fun h => by cases Hex.isSafe_of_mem_digits h

theorem temporaryName_injective {i j : String} {m n : Nat}
    (h : temporaryName i m = temporaryName j n) : i = j ∧ m = n := by
  have hl := congrArg String.toList h
  rw [toList_temporaryName, toList_temporaryName] at hl
  obtain ⟨hi, hm⟩ := append_point_inj (point_not_mem_encode i) (point_not_mem_encode j)
    (List.cons.inj hl).2
  rw [List.append_cancel_right_eq] at hm
  exact ⟨Percent.encode_injective (String.toList_inj.1 hi), Hex.digits_injective hm⟩

theorem temporaryName_ne_recordName (i j : String) (m : Nat) :
    temporaryName i m ≠ recordName j := by
  intro h
  have hl := congrArg (fun n : String => n.toList.getLast?) h
  simp [toList_temporaryName, toList_recordName, List.getLast?_cons, List.getLast?_append] at hl

theorem PlainName.of_length {n : String} (no_slash : '/' ∉ n.toList) (h : 2 < n.toList.length) :
    PlainName n where
  no_slash := no_slash
  ne_nil hn := by simp [hn] at h
  ne_here hn := by simp [hn] at h
  ne_above hn := by simp [hn] at h

theorem plainName_recordName (id : String) : PlainName (recordName id) :=
  .of_length (by simp [toList_recordName, slash_not_mem_encode])
    (by simp only [toList_recordName, List.length_append, List.length_cons]; omega)

theorem plainName_temporaryName (id : String) (mark : Nat) : PlainName (temporaryName id mark) :=
  .of_length (by simp [toList_temporaryName, slash_not_mem_encode, slash_not_mem_digits])
    (by simp only [toList_temporaryName, List.length_append, List.length_cons]; omega)

/-! ### Paths -/

namespace Path

theorem pieces_ne_nil (cs : List Char) : pieces cs ≠ [] := by
  cases cs with
  | nil => simp [pieces]
  | cons c cs =>
    unfold pieces
    split
    · simp
    · split <;> simp

theorem pieces_append_slash (cs ds : List Char) :
    pieces (cs ++ '/' :: ds) = pieces cs ++ pieces ds := by
  induction cs with
  | nil =>
    obtain ⟨p, ps, h⟩ := List.exists_cons_of_ne_nil (pieces_ne_nil ds)
    simp [pieces, h]
  | cons c cs ih =>
    obtain ⟨p, ps, h⟩ := List.exists_cons_of_ne_nil (pieces_ne_nil cs)
    rw [h] at ih
    simp only [List.cons_append, pieces, ih, h]
    split <;> rfl

theorem pieces_of_no_slash {cs : List Char} (h : '/' ∉ cs) : pieces cs = [cs] := by
  induction cs with
  | nil => rfl
  | cons c cs ih =>
    rw [List.mem_cons, not_or] at h
    simp [pieces, ih h.2, Ne.symm h.1]

/-- A path that goes on with a plain name. -/
theorem parts_join (directory : String) {n : String} (plain : PlainName n) :
    parts (join directory n) = parts directory ++ [n] := by
  have hn : pieces n.toList = [n.toList] := pieces_of_no_slash plain.no_slash
  have hr : isRooted n = false := by
    refine decide_eq_false fun h => plain.no_slash ?_
    exact List.mem_of_mem_head? h
  have hf : (([n.toList] : List (List Char)).filter fun p => !p.isEmpty) = [n.toList] := by
    simp [plain.ne_nil]
  unfold join
  rw [hr]
  simp only [Bool.false_eq_true, if_false]
  split
  · next h =>
    by_cases hd : directory = ""
    · subst hd
      simp [parts, pieces, hn, plain.ne_nil]
    · obtain ⟨cs, hc⟩ : ∃ cs, directory.toList = cs ++ ['/'] :=
        List.getLast?_eq_some_iff.1 (h.resolve_left hd)
      have hp : pieces directory.toList = pieces cs ++ [[]] := by
        rw [hc, pieces_append_slash]
        rfl
      simp only [parts, String.toList_append, hp]
      rw [hc, List.append_assoc, List.singleton_append, pieces_append_slash, hn]
      simp [plain.ne_nil]
  · have hs : (directory ++ "/" ++ n).toList = directory.toList ++ '/' :: n.toList := by
      simp
    rw [parts, hs, pieces_append_slash, hn, List.filter_append, hf, List.map_append]
    simp [parts]

end Path

end ServiceBus
