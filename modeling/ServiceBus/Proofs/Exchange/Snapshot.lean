import ServiceBus.Exchange.Snapshot
import ServiceBus.Proofs.Exchange.Underway
import ServiceBus.Proofs.Json.Fields

/-!
# What a snapshot tells

`v.Tells y`: the written snapshot `v` has the hand-offs of `y`, its role, its hops and, if it is
back with the consumer, its reply. A snapshot tells of the exchange it was taken of
(`tells_snapshot`), and goes on telling of it until the exchange changes hands (`Tells.leads`).
Whatever is restored from such a value has that hand-off (`Tells.restored`).
-/

namespace ServiceBus

/-! ### Members of a written object -/

namespace Raw
variable {names : List String} {d : Nat} {n : String} {v : Json} {ms : List (String × Json)}

/-- A name that is found stands first among the members of that name. -/
theorem filter_of_member? (h : Json.member? n ms = some v) :
    ∃ more, ((ms.map fun m => (m.1, m.2.raw)).filter fun m => m.1 = n) = (n, v.raw) :: more := by
  induction ms with
  | nil => cases h
  | cons m ms ih =>
    obtain ⟨k, x⟩ := m
    rw [Json.member?] at h
    split at h
    · next e =>
      cases h
      simp [e]
    · next e =>
      simpa [e] using ih h

/-- A record read from a written object has what the object says of a field. -/
theorem slot_of_record? {f : Fields} (h : record? names d (Json.object ms).raw = some f)
    (hn : n ∈ names) (hv : Json.member? n ms = some v) : f.slot n = .given v.raw := by
  cases d with
  | zero => cases h
  | succ d =>
    rw [Json.raw, record?, named?_rawMembers, Option.bind_some, fieldsOfMembers?_eq] at h
    split at h
    · next once =>
      cases h
      have slot := once n hn
      obtain ⟨more, hf⟩ := filter_of_member? hv
      simp only [slot?, hf, if_pos hn] at slot ⊢
      cases more with
      | nil => rfl
      | cons _ _ => cases slot
    · cases h

end Raw

/-! ### Changing hands -/

namespace Exchange
variable {y z : Exchange}

/-- The exchange is with its provider, or back with the consumer. -/
def Handed (y : Exchange) : Prop :=
  (y.owner = .provider ∧ y.hops = 1) ∨ (y.owner = .consumer ∧ y.hops = 2)

/-- `z` has changed hands as often as `y`, and it has a reply if that has come back. -/
structure HandedAs (z y : Exchange) : Prop where
  owner_eq : z.owner = y.owner
  hops_eq : z.hops = y.hops
  output : y.hops = 2 → z.output.isSome = y.output.isSome
  fault : y.hops = 2 → z.fault.isSome = y.fault.isSome

theorem Handed.change (h : y.Handed) (c : Change) :
    (y.change c).1.Handed ∧ ((y.change c).1.hops = y.hops → (y.change c).1.owner = y.owner ∧
      (y.hops = 2 → (y.change c).1.output = y.output ∧ (y.change c).1.fault = y.fault)) := by
  rcases change_fst_cases y c with e | ⟨-, z, hz, e⟩ <;> rw [e]
  · exact ⟨h, fun _ => ⟨rfl, fun _ => ⟨rfl, rfl⟩⟩⟩
  have same {z : Exchange} (ho : z.owner = y.owner) (hh : z.hops = y.hops) : z.Handed := by
    rw [Handed, ho, hh]
    exact h
  have back (owner : y.owner = .provider) : y.hops ≠ 2 := by
    rcases h with ⟨-, hops⟩ | ⟨ho, -⟩
    · omega
    · rw [owner] at ho
      cases ho
  cases hz with
  | setProperty | done | fail => exact ⟨same rfl rfl, fun _ => ⟨rfl, fun _ => ⟨rfl, rfl⟩⟩⟩
  | setIn m owner hops | dispatch t owner hops input => rcases h with ⟨-, hh⟩ | ⟨-, hh⟩ <;> omega
  | setOut m _ owner | setFault m _ owner =>
    exact ⟨same rfl rfl, fun _ => ⟨rfl, fun hops => absurd hops (back owner)⟩⟩
  | handBack owner hops reply => exact ⟨.inr ⟨rfl, rfl⟩, fun e => by cases e.trans hops⟩

/-- Until an exchange changes hands its role and its reply stay as they are. -/
theorem Handed.leads (h : y.Handed) (l : Leads y z) :
    z.Handed ∧ y.hops ≤ z.hops ∧ (z.hops = y.hops → z.owner = y.owner ∧
      (y.hops = 2 → z.output = y.output ∧ z.fault = y.fault)) := by
  induction l with
  | refl => exact ⟨h, Nat.le_refl _, fun _ => ⟨rfl, fun _ => ⟨rfl, rfl⟩⟩⟩
  | @change z l c ih =>
    obtain ⟨hz, le, kept⟩ := ih
    obtain ⟨hc, keeps⟩ := hz.change c
    have le' := (Onward.change z c).hops_le
    refine ⟨hc, Nat.le_trans le le', fun e => ?_⟩
    have e₁ : z.hops = y.hops := by omega
    obtain ⟨ho, hr⟩ := kept e₁
    obtain ⟨ho', hr'⟩ := keeps (e.trans e₁.symm)
    refine ⟨ho'.trans ho, fun two => ?_⟩
    obtain ⟨out, fault⟩ := hr two
    obtain ⟨out', fault'⟩ := hr' (e₁.trans two)
    exact ⟨out'.trans out, fault'.trans fault⟩

theorem Handed.hops_cases (h : y.Handed) : y.hops = 1 ∨ y.hops = 2 :=
  h.imp And.right And.right

/-- Once handed over an exchange comes back at most. -/
theorem Handed.hops_leads (h : y.Handed) (l : Leads y z) :
    z.hops = y.hops ∨ (y.hops = 1 ∧ z.hops = 2) := by
  obtain ⟨hz, le, -⟩ := h.leads l
  have hy := h.hops_cases
  have hz := hz.hops_cases
  omega

end Exchange

/-! ### Telling -/

/-- The written snapshot has the last hand-off of the exchange. -/
structure Json.Tells (v : Json) (y : Exchange) : Prop where
  role : v.get? "role" = some (.text y.owner.display)
  hops : v.get? "hops" = some (.nat y.hops)
  output : y.hops = 2 →
    v.get? "outMessage" = some (Json.ofOption Message.toJson y.output).canonical
  fault : y.hops = 2 → v.get? "fault" = some (Json.ofOption Fault.toJson y.fault).canonical

namespace Json
variable {v : Json} {y z : Exchange}

theorem get?_canonical_snapshot (s : Snapshot) (name : String) :
    s.toJson.canonical.get? name = (s.toJson.get? name).map canonical := by
  have nodup : Snapshot.fieldNames.Nodup := by decide
  unfold Snapshot.toJson
  rw [canonical, get?, get?]
  refine (member?_canonicalMembers ?_).trans Option.or_none
  exact nodup

theorem tells_snapshot (y : Exchange) : y.snapshot.toJson.canonical.Tells y := by
  constructor <;> intros <;> rw [get?_canonical_snapshot] <;> rfl

/-- A snapshot tells of an exchange as long as that does not change hands. -/
theorem Tells.leads (h : v.Tells y) (handed : y.Handed) (l : Exchange.Leads y z)
    (hops : z.hops = y.hops) : v.Tells z := by
  obtain ⟨-, -, kept⟩ := handed.leads l
  obtain ⟨owner, reply⟩ := kept hops
  refine ⟨owner ▸ h.role, hops ▸ h.hops, fun two => ?_, fun two => ?_⟩
  · rw [(reply (hops ▸ two)).1]
    exact h.output (hops ▸ two)
  · rw [(reply (hops ▸ two)).2]
    exact h.fault (hops ▸ two)

/-- What is restored from a value that tells of an exchange has its last hand-off. -/
theorem Tells.restored (h : v.Tells y) (handed : y.Handed) {s : Snapshot}
    (read : Decoder.value Snapshot.decode v = some s) (r : Registry) :
    (s.restore r).HandedAs y := by
  obtain ⟨ms, rfl⟩ : ∃ ms, v = .object ms := by
    have hr := h.role
    cases v <;> first | exact ⟨_, rfl⟩ | cases hr
  obtain ⟨f, hf, read⟩ := Option.bind_eq_some_iff.1 read
  -- the version, the id, the pattern and the status come first
  iterate 4 obtain ⟨_, -, read⟩ := Option.bind_eq_some_iff.1 read
  obtain ⟨role, hrole, read⟩ := Option.bind_eq_some_iff.1 read
  obtain ⟨hops, hhops, read⟩ := Option.bind_eq_some_iff.1 read
  -- then the flags, the address and the request
  iterate 8 obtain ⟨_, -, read⟩ := Option.bind_eq_some_iff.1 read
  obtain ⟨output, hout, read⟩ := Option.bind_eq_some_iff.1 read
  obtain ⟨fault, hfault, read⟩ := Option.bind_eq_some_iff.1 read
  -- and last the error and the properties
  iterate 2 obtain ⟨_, -, read⟩ := Option.bind_eq_some_iff.1 read
  cases read
  have slot {n : String} {x : Json} (hn : n ∈ Snapshot.fieldNames)
      (hx : get? n (.object ms) = some x) : f.slot n = .given x.raw :=
    Raw.slot_of_record? hf hn hx
  refine ⟨?_, ?_, fun two => ?_, fun two => ?_⟩
  · rw [Fields.required, slot (by decide) h.role] at hrole
    generalize y.owner = o at hrole ⊢
    cases o <;> cases hrole <;> rfl
  · rw [Fields.required, slot (by decide) h.hops] at hhops
    simp only [nat, raw, Decoder.byte, Decoder.nat] at hhops
    split at hhops
    · cases hhops
      exact Int.toNat_natCast _
    · have hops := handed.hops_cases
      omega
  · rw [Fields.optional, slot (by decide) (h.output two)] at hout
    generalize y.output = o at hout ⊢
    cases o with
    | none => cases hout; rfl
    | some m =>
      obtain ⟨m', -, rfl⟩ := Option.map_eq_some_iff.1 hout
      rfl
  · rw [Fields.optional, slot (by decide) (h.fault two)] at hfault
    generalize y.fault = o at hfault ⊢
    cases o with
    | none => cases hfault; rfl
    | some m =>
      obtain ⟨m', -, rfl⟩ := Option.map_eq_some_iff.1 hfault
      rfl

end Json
end ServiceBus
