import ServiceBus.Endpoint.Basic
import ServiceBus.Json.Parser
import ServiceBus.Json.Print

/-!
# Endpoint references

A `Reference` addresses an endpoint from outside the container. Its document is an object with a
version in front; `Reference.read` reads every field before it looks at the version, so a document
that lacks one is malformed whatever its version, and one that is complete but of another version is
refused for that.
-/

namespace ServiceBus

/-- An address for an endpoint; the element's local part carries the endpoint name. -/
structure Reference where
  element : QualifiedName
  service : QualifiedName
  address : String
  deriving DecidableEq, Repr, Inhabited

inductive ReferenceError where
  | malformed (reason : String)
  | unsupportedVersion (version : Nat)
  deriving DecidableEq, Repr

def ReferenceError.message : ReferenceError → String
  | .malformed reason => "Malformed endpoint reference: " ++ reason
  | .unsupportedVersion v => "Unsupported endpoint reference version: " ++ toString v

namespace Reference

def version : Nat := 1

def ofEndpoint (e : Endpoint) : Reference := ⟨⟨e.service.space, e.name⟩, e.service, e.address⟩

def toJson (r : Reference) : Json :=
  .object [("version", .nat version), ("elementName", r.element.toJson),
    ("serviceName", r.service.toJson), ("addressOrId", .text r.address)]

def fieldNames : List String := ["version", "elementName", "serviceName", "addressOrId"]

/-- Reads version and reference from an object. Every member but the version has to be a value that
can be kept, whether the reference has a use for it or not. -/
def decode : Decoder (Nat × Reference)
  | d + 1, .object ms => do
    let members ← Raw.named? ms
    let others := members.filter fun m => m.1 ≠ "version"
    let _ ← others.mapM fun m => m.2.value? d
    let f ← Raw.fieldsOfMembers? fieldNames d members
    let v ← f.required "version" .word32
    let element ← f.required "elementName" QualifiedName.decode
    let service ← f.required "serviceName" QualifiedName.decode
    let address ← f.required "addressOrId" .text
    some (v, ⟨element, service, address⟩)
  | _, _ => none

def read (d : Document) : Except ReferenceError Reference :=
  match (Raw.parse? d).bind (Decoder.document decode) with
  | none => .error (.malformed "not an endpoint reference")
  | some (v, r) => if v = version then .ok r else .error (.unsupportedVersion v)

def write (r : Reference) : String := r.toJson.render

end Reference

end ServiceBus
