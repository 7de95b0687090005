import ModuleBoundary.Json.Printer
import ModuleBoundary.Json.Reader
import ModuleBoundary.Text.Utf8

/-! Events as octets. -/

set_option autoImplicit false

namespace ModuleBoundary

/-- Why an event cannot be written, or octets cannot be read as one. -/
inductive CodecError where
  | malformed
  | typeMismatch (expected found : String)
  deriving DecidableEq

def CodecError.message : CodecError → String
  | .malformed => "Failed to (de)serialize event: not the JSON of an event"
  | .typeMismatch expected found => s!"Stored event type {found} does not match {expected}"

/-- Writing events and reading them back, in a monad. Octets are read under the type that
was written with them. -/
structure EventCodec (m : Type → Type) (Event : Type) where
  eventType : Event → String
  encode : Event → m (Except CodecError (List UInt8))
  decode : List UInt8 → String → m (Except CodecError Event)

/-- How events of one type are written as JSON. -/
structure JsonForm (Event : Type) where
  eventType : String
  toJson : Event → Json
  ofJson? : Json → Option Event

namespace JsonForm

variable {Event : Type}

def encode (form : JsonForm Event) (event : Event) : List UInt8 :=
  Text.toUtf8 (form.toJson event).compact

/-- Octets of another type are refused unread. -/
def decode (form : JsonForm Event) (octets : List UInt8) (eventType : String) :
    Except CodecError Event :=
  if eventType ≠ form.eventType then .error (.typeMismatch form.eventType eventType)
  else match (Json.ofLetters? (Text.lettersOfUtf8 octets)).bind form.ofJson? with
    | some event => .ok event
    | none => .error .malformed

def codec {m : Type → Type} [Monad m] (form : JsonForm Event) : EventCodec m Event where
  eventType _ := form.eventType
  encode event := return .ok (form.encode event)
  decode octets eventType := return form.decode octets eventType

end JsonForm

end ModuleBoundary
