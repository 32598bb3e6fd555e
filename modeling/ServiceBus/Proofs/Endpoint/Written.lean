import ServiceBus.Endpoint.Reference
import ServiceBus.Proofs.Json.Fields

/-!
# Names, ids and references are read back

A qualified name and the id of an endpoint are read back from what is written of them
(`QualifiedName.reads_toJson`, `EndpointId.reads_toJson`), and so is a reference from its document,
whatever texts it is made of (`Reference.read_write`).
-/

namespace ServiceBus
open Decoder

theorem QualifiedName.reads_toJson (st : Json.Style) (n : QualifiedName) :
    QualifiedName.decode.Reads (n.toJson.styled st) n := by
  refine .record ["namespace", "localPart"] (by simp) (fun _ _ => rfl) fun d => ?_
  refine Eq.trans (bind_of_reads (required_of_reads (by decide) rfl (reads_text st n.space)) <|
    bind_of_reads (q := True) (required_of_reads (by decide) rfl (reads_text st n.localPart))
      rfl) ?_
  simp

theorem EndpointId.reads_toJson (st : Json.Style) (k : EndpointId) :
    EndpointId.decode.Reads (k.toJson.styled st) k := by
  refine .record ["serviceName", "endpointName"] (by simp) (fun _ _ => rfl) fun d => ?_
  refine Eq.trans (bind_of_reads (required_of_reads (by decide) rfl (k.service.reads_toJson st)) <|
    bind_of_reads (q := True) (required_of_reads (by decide) rfl (reads_text st k.endpoint))
      rfl) ?_
  simp

namespace Reference

theorem isWhole_toJson (r : Reference) : r.toJson.isWhole = true := rfl

theorem decode_toJson (r : Reference) :
    Decoder.document decode r.toJson.raw = some (version, r) := by
  rfl

/-- Whatever texts it is made of, a reference is what is read from its document. -/
theorem read_write (r : Reference) : read (.ofString r.write) = .ok r := by
  unfold read write
  rw [Json.parse?_render r.isWhole_toJson, Option.bind_some, r.decode_toJson]
  rfl

end Reference
end ServiceBus
