import ServiceBus.Json.Decode
import ServiceBus.Json.Print

/-!
# Messages

A `Message` is a payload with properties beside it; the container looks into neither. A `Fault` is a
message a provider answers with when it could not do what was asked. Properties without entries are
left out of the written form.
-/

namespace ServiceBus

/-- Named values, names in increasing order. -/
abbrev Properties := List (String × Json)

structure Message where
  content : Json
  properties : Properties
  deriving DecidableEq, Repr

namespace Message

def empty : Message := ⟨.null, []⟩

instance : Inhabited Message := ⟨empty⟩

def ofContent (v : Json) : Message := ⟨v, []⟩

def withProperty (m : Message) (name : String) (v : Json) : Message :=
  { m with properties := Json.insert name v m.properties }

def property? (m : Message) (name : String) : Option Json := Json.member? name m.properties

def toJson (m : Message) : Json :=
  .object (("content", m.content) ::
    if m.properties.isEmpty then [] else [("properties", .object m.properties)])

def decode : Decoder Message := fun d r => do
  let f ← r.record? ["content", "properties"] d
  some ⟨← f.required "content" .any, ← f.orElse "properties" .members []⟩

end Message

/-- A message a provider answers with instead of a reply. -/
structure Fault where
  message : Message
  deriving DecidableEq, Repr, Inhabited

namespace Fault

def toJson (f : Fault) : Json := f.message.toJson

def decode : Decoder Fault := fun d r => (Message.decode d r).map Fault.mk

end Fault

end ServiceBus
