import ServiceBus.Exchange.Snapshot
import ServiceBus.Proofs.Endpoint.Written

/-!
# Snapshots are read back

A message is read back from what is written of it, and so is a snapshot, in either style and as deep
as the reader goes (`Snapshot.reads_toJson`). From its text a snapshot comes back as long as what it
carries does not nest too deep (`Snapshot.NestsWithin`), and from a value always; two that differ
anywhere are written differently (`Snapshot.read_written`).
-/

namespace ServiceBus
open Json Decoder

/-- All members stand in order, each name once, and all numbers are whole numbers of 64 bits. -/
structure Json.Plain (v : Json) : Prop where
  ordered : v.canonical = v
  whole : v.isWhole = true

namespace Json
variable {α : Type} {f : α → Json} {o : Option α} {n d : Nat} {ms : List (String × Json)}

theorem isWhole_object : (object ms).isWhole = true ↔ ∀ m ∈ ms, m.2.isWhole = true := by
  rw [isWhole]
  induction ms with
  | nil => simp [membersAreWhole]
  | cons m ms ih => rw [membersAreWhole, Bool.and_eq_true, ih, List.forall_mem_cons]

theorem isWhole_nat (h : n < Numeral.wordLimit) : (Json.nat n).isWhole = true := by
  rw [Json.nat, isWhole, isWord, decide_eq_true_eq]
  omega

theorem isWhole_ofOption (h : ∀ a, o = some a → (f a).isWhole = true) :
    (ofOption f o).isWhole = true := by
  cases o with
  | none => rfl
  | some a => exact h a rfl

theorem depth_ofOption_le_iff : (ofOption f o).depth ≤ d ↔ ∀ a ∈ o, (f a).depth ≤ d := by
  cases o with
  | none => simp [ofOption, depth]
  | some a => simp [ofOption]

theorem depth_object_le_iff : (object ms).depth ≤ d + 1 ↔ ∀ m ∈ ms, m.2.depth ≤ d := by
  rw [depth, Nat.add_le_add_iff_right, depthMembers_le_iff]

end Json

/-! ### Messages -/

namespace Message
variable {m : Message} {d : Nat}

structure Plain (m : Message) : Prop where
  content : m.content.Plain
  properties : (object m.properties).Plain

theorem reads_toJson (st : Style) (h : m.Plain) : decode.Reads (m.toJson.styled st) m := by
  obtain ⟨content, properties⟩ := m
  have read := reads_any st h.content.ordered
  cases properties with
  | nil =>
    refine .record ["content", "properties"] (by simp) (fun _ _ => rfl) fun d => ?_
    refine Eq.trans (bind_of_reads (q := True) (required_of_reads (by decide) rfl read)
      (congrArg (Option.bind · _) (orElse_of_missing (by decide) rfl []))) ?_
    simp
  | cons p properties =>
    refine .record ["content", "properties"] (by simp) (fun _ _ => rfl) fun d => ?_
    refine Eq.trans (bind_of_reads (required_of_reads (by decide) rfl read) <|
      bind_of_reads (q := True)
        (orElse_of_reads (by decide) rfl (reads_members st h.properties.ordered) []) rfl) ?_
    simp

theorem isWhole_toJson (h : m.Plain) : m.toJson.isWhole = true := by
  rw [toJson, isWhole_object, List.forall_mem_cons]
  refine ⟨h.content.whole, ?_⟩
  split
  · exact nofun
  · exact List.forall_mem_singleton.2 h.properties.whole

theorem depth_toJson_le_iff :
    m.toJson.depth ≤ d + 1 ↔ m.content.depth ≤ d ∧ ∀ p ∈ m.properties, p.2.depth < d := by
  rw [toJson, depth_object_le_iff, List.forall_mem_cons]
  refine and_congr_right fun _ => ?_
  cases m.properties with
  | nil => simp
  | cons p ps =>
    cases d with
    | zero => exact iff_of_false (by simp [depth]) fun h => by simpa using h p List.mem_cons_self
    | succ d =>
      rw [List.isEmpty_cons, if_neg (by decide), List.forall_mem_singleton, depth_object_le_iff]
      simp only [Nat.lt_succ_iff]

end Message

theorem Fault.reads_toJson (st : Style) {f : Fault} (h : f.message.Plain) :
    Fault.decode.Reads (f.toJson.styled st) f := by
  intro d
  rw [Fault.decode, Fault.toJson, Message.reads_toJson st h d]
  split <;> rfl

theorem Pattern.reads_display (st : Style) (p : Pattern) :
    Pattern.decode.Reads ((Json.text p.display).styled st) p :=
  reads_choice st (by cases p <;> rfl)

theorem Status.reads_display (st : Style) (s : Status) :
    Status.decode.Reads ((Json.text s.display).styled st) s :=
  reads_choice st (by cases s <;> rfl)

theorem Role.reads_display (st : Style) (r : Role) :
    Role.decode.Reads ((Json.text r.display).styled st) r :=
  reads_choice st (by cases r <;> rfl)

/-! ### Snapshots -/

namespace Snapshot
variable {s s' : Snapshot} {d : Nat}

/-- The request, the reply and the fault, as far as there are any. -/
def messages (s : Snapshot) : List Message :=
  s.input.toList ++ (s.output.toList ++ (s.fault.map (·.message)).toList)

/-- The version and the hops fit into their 32 and 8 bits, and everything that the snapshot carries
is plain. -/
structure Plain (s : Snapshot) : Prop where
  version : s.version ≤ 0xFFFFFFFF
  hops : s.hops ≤ 0xFF
  messages : ∀ m ∈ s.messages, m.Plain
  properties : (object s.properties).Plain

theorem Plain.input (h : s.Plain) {m : Message} (hm : s.input = some m) : m.Plain :=
  h.messages m (by simp [Snapshot.messages, hm])

theorem Plain.output (h : s.Plain) {m : Message} (hm : s.output = some m) : m.Plain :=
  h.messages m (by simp [Snapshot.messages, hm])

theorem Plain.fault (h : s.Plain) {f : Fault} (hf : s.fault = some f) : f.message.Plain :=
  h.messages f.message (by simp [Snapshot.messages, hf])

theorem reads_toJson (st : Style) (h : s.Plain) : decode.Reads (s.toJson.styled st) s := by
  refine .record fieldNames (by simp) (fun _ _ => rfl) fun d => ?_
  refine Eq.trans
    (bind_of_reads (required_of_reads (by decide) rfl (reads_nat st h.version)) <|
    bind_of_reads (required_of_reads (by decide) rfl (reads_text st s.exchangeId)) <|
    bind_of_reads (required_of_reads (by decide) rfl (s.pattern.reads_display st)) <|
    bind_of_reads (required_of_reads (by decide) rfl (s.status.reads_display st)) <|
    bind_of_reads (required_of_reads (by decide) rfl (s.role.reads_display st)) <|
    bind_of_reads (required_of_reads (by decide) rfl (reads_nat st h.hops)) <|
    bind_of_reads (required_of_reads (by decide) rfl (reads_bool st s.synchronous)) <|
    bind_of_reads (required_of_reads (by decide) rfl (reads_bool st s.persistent)) <|
    -- what may be absent: the endpoints, the address, the messages and the error
    bind_of_reads (optional_of_reads (by decide) rfl rfl fun k _ => k.reads_toJson st) <|
    bind_of_reads (optional_of_reads (by decide) rfl rfl fun k _ => k.reads_toJson st) <|
    bind_of_reads (optional_of_reads (by decide) rfl rfl fun n _ => n.reads_toJson st) <|
    bind_of_reads (optional_of_reads (by decide) rfl rfl fun n _ => n.reads_toJson st) <|
    bind_of_reads (optional_of_reads (by decide) rfl rfl fun n _ => n.reads_toJson st) <|
    bind_of_reads (optional_of_reads (by decide) rfl rfl fun _ hm =>
      Message.reads_toJson st (h.input hm)) <|
    bind_of_reads (optional_of_reads (by decide) rfl rfl fun _ hm =>
      Message.reads_toJson st (h.output hm)) <|
    bind_of_reads (optional_of_reads (by decide) rfl rfl fun _ hf =>
      Fault.reads_toJson st (h.fault hf)) <|
    bind_of_reads (optional_of_reads (by decide) rfl rfl fun e _ => reads_text st e) <|
    bind_of_reads (q := True)
      (orElse_of_reads (by decide) rfl (reads_members st h.properties.ordered) []) rfl) ?_
  simp only [List.forall_mem_cons, List.not_mem_nil, false_imp_iff, forall_const]

theorem isWhole_toJson (h : s.Plain) : s.toJson.isWhole = true := by
  have version := Nat.lt_of_le_of_lt h.version (show _ < Numeral.wordLimit by decide)
  have hops := Nat.lt_of_le_of_lt h.hops (show _ < Numeral.wordLimit by decide)
  rw [toJson, isWhole_object]
  simp only [List.forall_mem_cons, List.not_mem_nil, false_imp_iff, forall_const, and_true]
  exact ⟨isWhole_nat version, rfl, rfl, rfl, rfl, isWhole_nat hops, rfl, rfl,
    isWhole_ofOption fun _ _ => rfl, isWhole_ofOption fun _ _ => rfl,
    isWhole_ofOption fun _ _ => rfl, isWhole_ofOption fun _ _ => rfl,
    isWhole_ofOption fun _ _ => rfl,
    isWhole_ofOption fun _ hm => Message.isWhole_toJson (h.input hm),
    isWhole_ofOption fun _ hm => Message.isWhole_toJson (h.output hm),
    isWhole_ofOption fun _ hf => Message.isWhole_toJson (h.fault hf),
    isWhole_ofOption fun _ _ => rfl, h.properties.whole⟩

/-- Contents nest at most so many levels, and so do properties with their own object around. -/
structure NestsWithin (s : Snapshot) (d : Nat) : Prop where
  content : ∀ m ∈ s.messages, m.content.depth ≤ d
  property : ∀ m ∈ s.messages, ∀ p ∈ m.properties, p.2.depth < d
  properties : ∀ p ∈ s.properties, p.2.depth ≤ d

theorem forall_messages {p : Message → Prop} :
    (∀ m ∈ s.messages, p m) ↔ (∀ m ∈ s.input, p m) ∧ (∀ m ∈ s.output, p m) ∧
      ∀ f ∈ s.fault, p f.message := by
  simp only [messages, List.forall_mem_append, Option.mem_toList, Option.mem_def,
    Option.map_eq_some_iff, forall_exists_index, and_imp, forall_apply_eq_imp_iff₂]

theorem depth_toJson_le_iff (hd : 1 ≤ d) : s.toJson.depth ≤ d + 2 ↔ s.NestsWithin d := by
  have ids (o : Option EndpointId) : (ofOption EndpointId.toJson o).depth ≤ d + 1 :=
    depth_ofOption_le_iff.2 fun _ _ => Nat.succ_le_succ hd
  have names (o : Option QualifiedName) : (ofOption QualifiedName.toJson o).depth ≤ d + 1 :=
    depth_ofOption_le_iff.2 fun _ _ => Nat.le_add_left 1 d
  have error : (ofOption .text s.error).depth ≤ d + 1 :=
    depth_ofOption_le_iff.2 fun _ _ => Nat.zero_le _
  have carried : s.toJson.depth ≤ d + 2 ↔
      (∀ m ∈ s.messages, m.toJson.depth ≤ d + 1) ∧ (object s.properties).depth ≤ d + 1 := by
    rw [toJson, depth_object_le_iff, forall_messages]
    simp only [List.forall_mem_cons, List.not_mem_nil, false_imp_iff, forall_const, and_true,
      ids, names, error, depth_ofOption_le_iff, true_and, and_assoc]
    -- neither do the scalars in front count
    exact ⟨fun ⟨_, _, _, _, _, _, _, _, h⟩ => h, fun h => ⟨Nat.zero_le _, Nat.zero_le _,
      Nat.zero_le _, Nat.zero_le _, Nat.zero_le _, Nat.zero_le _, Nat.zero_le _, Nat.zero_le _, h⟩⟩
  rw [carried, depth_object_le_iff]
  simp only [Message.depth_toJson_le_iff]
  exact ⟨fun ⟨h, properties⟩ => ⟨fun m hm => (h m hm).1, fun m hm => (h m hm).2, properties⟩,
    fun h => ⟨fun m hm => ⟨h.content m hm, h.property m hm⟩, h.properties⟩⟩

theorem parse?_toJson (h : s.Plain) :
    (Raw.parse? (.ofString s.toJson.render)).bind (Decoder.document decode) =
      if s.toJson.depth ≤ Raw.nesting then some s else none := by
  rw [parse?_render (isWhole_toJson h), Option.bind_some]
  exact reads_toJson .written h Raw.nesting

theorem value_toJson (h : s.Plain) : Decoder.value decode s.toJson.canonical = some s :=
  (reads_toJson .ordered h _).trans (if_pos (Nat.le_refl _))

theorem eq_of_render (h : s.Plain) (h' : s'.Plain) (e : s.toJson.render = s'.toJson.render) :
    s = s' := by
  have said := parse?_render (isWhole_toJson h)
  rw [e, parse?_render (isWhole_toJson h'), Option.some.injEq] at said
  have read := reads_toJson .written h (max s.toJson.depth s'.toJson.depth)
  have read' := reads_toJson .written h' (max s.toJson.depth s'.toJson.depth)
  rw [styled, if_pos (Nat.le_max_left _ _), ← said] at read
  rw [styled, if_pos (Nat.le_max_right _ _)] at read'
  exact Option.some.inj (read.symm.trans read')

/-- From its text a snapshot is read back unless it nests too deep, from a value always. Different
snapshots are written differently, and references are read back as well. -/
theorem read_written (h : s.Plain) (r : Reference) :
    (Raw.parse? (.ofString s.toJson.render)).bind (Decoder.document decode) =
        (if s.toJson.depth ≤ Raw.nesting then some s else none) ∧
      (s.toJson.depth ≤ Raw.nesting ↔ s.NestsWithin (Raw.nesting - 2)) ∧
      Decoder.value decode s.toJson.canonical = some s ∧
      (∀ s' : Snapshot, s'.Plain →
        s'.toJson.render = s.toJson.render ∨ s'.toJson.canonical = s.toJson.canonical → s' = s) ∧
      Reference.read (.ofString r.write) = .ok r := by
  refine ⟨parse?_toJson h, depth_toJson_le_iff (by decide), value_toJson h, fun s' h' e => ?_,
    r.read_write⟩
  rcases e with text | value
  · exact eq_of_render h' h text
  · have read := value_toJson h'
    rw [value, value_toJson h] at read
    exact (Option.some.inj read).symm

/-- A request of nothing, answered by a fault that has properties. -/
def refused : Snapshot where
  version := 7
  exchangeId := "\"\n"
  pattern := .inOut
  status := .active
  role := .consumer
  hops := 2
  synchronous := true
  persistent := false
  source := some ⟨⟨"urn:s", "orders"⟩, ""⟩
  target := none
  service := none
  interface := none
  operation := some ⟨"", "buy"⟩
  input := some ⟨.null, []⟩
  output := none
  fault := some ⟨⟨.array [.nat 1, .int (-1)], [("", .null), ("a\\b", .object [])]⟩⟩
  error := some ""
  properties := [("properties", .object [("content", .null)])]

theorem read_written_refused : refused.Plain ∧
    (Raw.parse? (.ofString refused.toJson.render)).bind (Decoder.document decode) = some refused ∧
      (∀ s' : Snapshot, s'.Plain → s'.toJson.render = refused.toJson.render → s' = refused) := by
  have messages : ∀ m ∈ refused.messages, m.Plain :=
    List.forall_mem_cons.2 ⟨⟨⟨rfl, rfl⟩, ⟨rfl, rfl⟩⟩, List.forall_mem_singleton.2
      ⟨⟨rfl, rfl⟩, ⟨rfl, rfl⟩⟩⟩
  have plain : refused.Plain := ⟨by decide, by decide, messages, ⟨rfl, rfl⟩⟩
  obtain ⟨text, -, -, apart, -⟩ := read_written plain default
  exact ⟨plain, text.trans (if_pos (by decide)), fun s' h' e => apart s' h' (.inl e)⟩

end Snapshot
end ServiceBus
