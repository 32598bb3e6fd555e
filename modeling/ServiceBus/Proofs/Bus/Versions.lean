import ServiceBus.Bus.Storage
import ServiceBus.Proofs.Json.Fields
import ServiceBus.Proofs.Store.Served

/-!
# What is said of other versions

References, snapshots and records say what version they are of, and only the current one is
accepted. The readers look at the version last, when all fields have been read in today's format
(`Snapshot.decode_edition` and the like). So of an object of another version the version is told if
the same object could be read in the current version, and of any other one that it cannot be read
(`Bus.told_of_version`).
-/

namespace ServiceBus

/-! ### Objects with a version -/

namespace Raw
variable {names : List String}

/-- An object that says it is of a version. -/
def edition (before after : List (Option String × Raw)) (v : Nat) : Raw :=
  .object (before ++ (some "version", .number (some (.int v))) :: after)

theorem record?_edition (hn : "version" ∈ names) (before after : List (Option String × Raw))
    (d v w : Nat) : record? names d (edition before after v) =
      (record? names d (edition before after w)).map
        (·.revise "version" (.number (some (.int v)))) := by
  cases d with
  | zero => rfl
  | succ d =>
    simp only [edition, record?, named?_append]
    cases named? before with
    | none => rfl
    | some b =>
      cases named? after with
      | none => rfl
      | some a => exact fieldsOfMembers?_revise names hn d b a _ _

end Raw

namespace Json

/-- A value that says it is of a version. -/
def edition (before after : List (String × Json)) (v : Nat) : Json :=
  .object (before ++ ("version", .nat v) :: after)

theorem rawMembers_append (ms ms' : List (String × Json)) :
    rawMembers (ms ++ ms') = rawMembers ms ++ rawMembers ms' := by
  induction ms with
  | nil => rfl
  | cons m ms ih => rw [List.cons_append, rawMembers, rawMembers, ih, List.cons_append]

theorem raw_edition (before after : List (String × Json)) (v : Nat) :
    (edition before after v).raw = .edition (rawMembers before) (rawMembers after) v := by
  rw [edition, raw, rawMembers_append]
  rfl

theorem depthMembers_append (ms ms' : List (String × Json)) :
    depthMembers (ms ++ ms') = max (depthMembers ms) (depthMembers ms') := by
  induction ms with
  | nil => exact (Nat.zero_max _).symm
  | cons m ms ih => rw [List.cons_append, depthMembers, ih, depthMembers, Nat.max_assoc]

theorem depth_edition (before after : List (String × Json)) (v w : Nat) :
    (edition before after v).depth = (edition before after w).depth := by
  rw [edition, edition, depth, depth, depthMembers_append, depthMembers_append]
  rfl

end Json

/-! ### Reading them -/

section
open Raw
variable {before after : List (Option String × Raw)} {v w d : Nat}

theorem Decoder.word32_of_le (h : v ≤ 0xFFFFFFFF) (d : Nat) :
    Decoder.word32 d (.number (some (.int v))) = some v :=
  (Decoder.reads_nat .written h d).trans (if_pos (Nat.zero_le d))

/-- What a change makes of the result is settled after the next field has been read. -/
theorem Decoder.bind_eq_map {α β : Type} {o : Option α} {k k' : α → Option β} {f : β → β}
    (h : ∀ a, k a = (k' a).map f) : o.bind k = (o.bind k').map f := by
  cases o with
  | none => rfl
  | some a => exact h a

open Decoder

theorem Snapshot.decode_edition (hv : v ≤ 0xFFFFFFFF) (hw : w ≤ 0xFFFFFFFF) :
    Snapshot.decode d (edition before after v) =
      (Snapshot.decode d (edition before after w)).map ({ · with version := v }) := by
  unfold Snapshot.decode
  rw [record?_edition (by decide) before after d v 0,
    record?_edition (by decide) before after d w 0]
  cases record? Snapshot.fieldNames d (edition before after 0) with
  | none => rfl
  | some f =>
    show (word32 f.depth _).bind _ = ((word32 f.depth _).bind _).map _
    rw [word32_of_le hv, word32_of_le hw, Option.bind_some, Option.bind_some]
    -- the fields after the version are the same
    repeat refine bind_eq_map fun _ => ?_
    rfl

theorem Record.decode_edition (hv : v ≤ 0xFFFFFFFF) (hw : w ≤ 0xFFFFFFFF) :
    Record.decode d (edition before after v) =
      (Record.decode d (edition before after w)).map ({ · with version := v }) := by
  unfold Record.decode
  rw [record?_edition (by decide) before after d v 0,
    record?_edition (by decide) before after d w 0]
  cases record? ["version", "id", "data"] d (edition before after 0) with
  | none => rfl
  | some f =>
    show (word32 f.depth _).bind _ = ((word32 f.depth _).bind _).map _
    rw [word32_of_le hv, word32_of_le hw, Option.bind_some, Option.bind_some]
    repeat refine bind_eq_map fun _ => ?_
    rfl

theorem Reference.decode_edition (hv : v ≤ 0xFFFFFFFF) (hw : w ≤ 0xFFFFFFFF) :
    Reference.decode d (edition before after v) =
      (Reference.decode d (edition before after w)).map fun p => (v, p.2) := by
  cases d with
  | zero => rfl
  | succ d =>
    simp only [edition, Reference.decode, named?_append]
    cases named? before with
    | none => rfl
    | some b =>
      cases named? after with
      | none => rfl
      | some a =>
        have revise (v : Nat) := fieldsOfMembers?_revise Reference.fieldNames (n := "version")
          (by decide) d b a (.number (some (.int v))) .null
        -- the version is not among the members that have to be values
        have others (v : Nat) : ((b ++ ("version", .number (some (.int v))) :: a).filter fun m =>
            m.1 ≠ "version") = (b ++ a).filter fun m => m.1 ≠ "version" := by
          simp
        simp only [Option.bind_eq_bind, Option.bind_some, Option.map_some, others, revise v,
          revise w]
        refine bind_eq_map fun _ => ?_
        cases fieldsOfMembers? Reference.fieldNames d (b ++ ("version", .null) :: a) with
        | none => rfl
        | some f =>
          show (word32 f.depth _).bind _ = ((word32 f.depth _).bind _).map _
          rw [word32_of_le hv, word32_of_le hw, Option.bind_some, Option.bind_some]
          repeat refine bind_eq_map fun _ => ?_
          rfl

end

/-! ### What is said -/

section
open Raw
variable {before after : List (Option String × Raw)} {v : Nat} {d : Document}

theorem Reference.read_of_version (hv : v ≤ 0xFFFFFFFF) (other : v ≠ 1)
    (said : Raw.parse? d = some (.edition before after v)) :
    Reference.read d = .error
      (if (Decoder.document Reference.decode (.edition before after 1)).isSome then
        .unsupportedVersion v else .malformed "not an endpoint reference") := by
  have same : Decoder.document Reference.decode (.edition before after v) =
      (Decoder.document Reference.decode (.edition before after 1)).map fun p => (v, p.2) :=
    Reference.decode_edition hv (by decide)
  rw [Reference.read, said, Option.bind_some, same]
  cases Decoder.document Reference.decode (.edition before after 1) with
  | none => rfl
  | some p => exact if_neg other

theorem DirectoryCall.answer_of_version (hv : v ≤ 0xFFFFFFFF) (other : v ≠ 1)
    (said : Raw.parse? d = some (.edition before after v)) (id : String) :
    DirectoryCall.answer id d = .error
      (if (Decoder.document Record.decode (.edition before after 1)).isSome then
        .unsupportedVersion id v else .serialization "not a record") := by
  have same : Decoder.document Record.decode (.edition before after v) =
      (Decoder.document Record.decode (.edition before after 1)).map ({ · with version := v }) :=
    Record.decode_edition hv (by decide)
  rw [DirectoryCall.answer, Record.read?, said, Option.bind_some, same]
  cases Decoder.document Record.decode (.edition before after 1) with
  | none => rfl
  | some r => exact if_neg other

theorem Bus.restored_of_version (hv : v ≤ 0xFFFFFFFF) (other : v ≠ 1) (b : Bus) (id : String)
    (ms ms' : List (String × Json)) :
    b.restored id (.ok (some (.edition ms ms' v))) = .error (.store
      (if (Decoder.value Snapshot.decode (.edition ms ms' 1)).isSome then
        .unsupportedVersion id v else .serialization "not a snapshot")) := by
  have same : Decoder.value Snapshot.decode (.edition ms ms' v) =
      (Decoder.value Snapshot.decode (.edition ms ms' 1)).map ({ · with version := v }) := by
    rw [Decoder.value, Decoder.value, Json.depth_edition ms ms' v 1, Json.raw_edition,
      Json.raw_edition]
    exact Snapshot.decode_edition hv (by decide)
  rw [Bus.restored, same]
  cases Decoder.value Snapshot.decode (.edition ms ms' 1) with
  | none => rfl
  | some s => exact if_neg other

/-- Of an object of another version, be it a reference, an entry or a record, the version is told
if and only if the same object could be read in the current version. -/
theorem Bus.told_of_version (hv : v ≤ 0xFFFFFFFF) (other : v ≠ 1)
    (said : Raw.parse? d = some (.edition before after v)) (b : Bus) (id : String)
    (ms ms' : List (String × Json)) {s : Store} {path : String} {features : List StoreFeature}
    (shelf : s.shelf = .directory path features) {t : Tree} (filed : t.record? path id = some d)
    (n : Nat) :
    Reference.read d = .error
        (if (Decoder.document Reference.decode (.edition before after 1)).isSome then
          .unsupportedVersion v else .malformed "not an endpoint reference") ∧
      b.restored id (.ok (some (.edition ms ms' v))) = .error (.store
        (if (Decoder.value Snapshot.decode (.edition ms ms' 1)).isSome then
          .unsupportedVersion id v else .serialization "not a snapshot")) ∧
      (s.serve n (.get id) t).answer = .error
        (if (Decoder.document Record.decode (.edition before after 1)).isSome then
          .unsupportedVersion id v else .serialization "not a record") := by
  refine ⟨Reference.read_of_version hv other said, b.restored_of_version hv other id ms ms', ?_⟩
  rw [Store.answer_get shelf, Tree.content?_eq_some_iff_read.1 filed]
  exact DirectoryCall.answer_of_version hv other said id

/-- A tree with one record file, that of the id `k`. -/
def Tree.ofRecord (d : Document) : Tree := Tree.empty.insert ["k.json"] (.file d)

/-- A reference of a later version, with its members in another order. -/
def laterReference : Json :=
  .edition [("addressOrId", .text "a"), ("extra", .null)]
    [("elementName", QualifiedName.toJson ⟨"", "e"⟩),
      ("serviceName", QualifiedName.toJson ⟨"", "S"⟩)] 7

/-- What a snapshot says beside its version. -/
def snapshotMembers : List (String × Json) :=
  [("exchangeId", .text "x"), ("pattern", .text "IN_ONLY"), ("status", .text "ACTIVE"),
    ("role", .text "CONSUMER"), ("hops", .nat 0), ("synchronous", .bool false),
    ("persistent", .bool true)]

theorem Bus.told_of_version_later :
    Reference.read (.ofString laterReference.render) = .error (.unsupportedVersion 7) ∧
      (default : Bus).restored "k" (.ok (some (.edition snapshotMembers [] 7))) =
        .error (.store (.unsupportedVersion "k" 7)) ∧
      ((Store.inDirectory "/" none).serve 0 (.get "k")
          (.ofRecord (.ofString laterReference.render))).answer =
        .error (.serialization "not a record") := by
  have said : Raw.parse? (.ofString laterReference.render) = some (.edition _ _ 7) :=
    (Json.parse?_render rfl).trans (congrArg some (Json.raw_edition _ _ 7))
  exact Bus.told_of_version (by decide) (by decide) said default "k" snapshotMembers [] rfl rfl 0

/-- Of an object that has its version alone none of them tells the version. -/
theorem Bus.not_told_of_version : ¬ ∀ (v : Nat) (ms ms' : List (String × Json)) (b : Bus)
    (id : String) (s : Store) (path : String) (features : List StoreFeature) (t : Tree) (n : Nat),
    v ≤ 0xFFFFFFFF → v ≠ 1 → ((ms ++ ("version", Json.nat v) :: ms').map Prod.fst).Nodup →
    s.shelf = .directory path features →
    t.record? path id = some (.ofString (Json.edition ms ms' v).render) →
    Reference.read (.ofString (Json.edition ms ms' v).render) = .error (.unsupportedVersion v) ∨
      b.restored id (.ok (some (.edition ms ms' v))) =
        .error (.store (.unsupportedVersion id v)) ∨
      (s.serve n (.get id) t).answer = .error (.unsupportedVersion id v) := by
  intro claimed
  have said : Raw.parse? (.ofString (Json.edition [] [] 7).render) = some (.edition [] [] 7) :=
    (Json.parse?_render rfl).trans (congrArg some (Json.raw_edition [] [] 7))
  rcases claimed 7 [] [] default "k" (Store.inDirectory "/" none) "/" [.persistent]
    (.ofRecord (.ofString (Json.edition [] [] 7).render)) 0 (by decide) (by decide) (by decide) rfl
    rfl with reference | entry | record
  · rw [Reference.read_of_version (by decide) (by decide) said] at reference
    cases reference
  · rw [Bus.restored_of_version (by decide) (by decide)] at entry
    cases entry
  · rw [Store.answer_get rfl, Tree.content?_eq_some_iff_read.1 rfl, DirectoryCall.loaded,
      DirectoryCall.answer_of_version (by decide) (by decide) said] at record
    cases record

end

end ServiceBus
