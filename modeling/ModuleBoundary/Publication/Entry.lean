import ModuleBoundary.Identifier
import ModuleBoundary.Instant.Text
import ModuleBoundary.Json.Record

/-! Publications as they are kept: with an identifier, and the event as octets. -/

set_option autoImplicit false

namespace ModuleBoundary

structure PublicationEntry where
  id : Identifier
  /-- Tells how the octets are to be read. -/
  eventType : String
  payload : List UInt8
  target : String
  published : Instant
  completed : Option Instant
  deriving DecidableEq

namespace PublicationEntry

def isCompleted (entry : PublicationEntry) : Bool := entry.completed.isSome

/-- The first completion date stays. -/
def complete (entry : PublicationEntry) (date : Instant) : PublicationEntry :=
  { entry with completed := entry.completed.or (some date) }

def toJson (entry : PublicationEntry) : Json :=
  .object [
    ("id", .text entry.id.text),
    ("event_type", .text entry.eventType),
    ("serialized_event", .list (entry.payload.map fun octet => .nat octet.toNat)),
    ("target", .text entry.target),
    ("publication_date", .text entry.published.text),
    ("completion_date", .optional (fun date => .text date.text) entry.completed)]

def asOctet? (document : Json) : Option UInt8 :=
  document.asNat?.bind fun number => if number < 256 then some number.toUInt8 else none

def asIdentifier? (document : Json) : Option Identifier := document.asText?.bind Identifier.ofText?

def asInstant? (document : Json) : Option Instant := document.asText?.bind Instant.ofText?

def ofJson? (document : Json) : Option PublicationEntry := do
  let fields ← document.fields?
    ["id", "event_type", "serialized_event", "target", "publication_date", "completion_date"]
  return {
    id := ← fields.required "id" asIdentifier?
    eventType := ← fields.required "event_type" Json.asText?
    payload := ← fields.required "serialized_event" (Json.asListOf? asOctet?)
    target := ← fields.required "target" Json.asText?
    published := ← fields.required "publication_date" asInstant?
    completed := ← fields.nullable "completion_date" asInstant? }

end PublicationEntry

end ModuleBoundary
