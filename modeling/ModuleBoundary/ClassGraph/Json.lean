import ModuleBoundary.ClassGraph
import ModuleBoundary.Json.Printer
import ModuleBoundary.Json.Reader
import ModuleBoundary.Json.Record

/-! The JSON form of class metadata, and class graphs as texts of it.

Everything but the name of a class may be left out. Sets are written in ascending order and
may be read in any order and with repetitions.
-/

set_option autoImplicit false

namespace ModuleBoundary

namespace Visibility

def word : Visibility → String
  | .publicAccess => "public"
  | .protectedAccess => "protected"
  | .packageAccess => "package"
  | .privateAccess => "private"

def ofWord? : String → Option Visibility
  | "public" => some .publicAccess
  | "protected" => some .protectedAccess
  | "package" => some .packageAccess
  | "private" => some .privateAccess
  | _ => none

def ofJson? (document : Json) : Option Visibility := document.asWord?.bind ofWord?

end Visibility

namespace CallSite

def toJson (call : CallSite) : Json :=
  .object [
    ("owner", .text call.owner),
    ("method", .text call.method),
    ("argument_types", .texts call.argumentTypes)]

def ofJson? (document : Json) : Option CallSite := do
  let fields ← document.fields? ["owner", "method", "argument_types"]
  return {
    owner := ← fields.required "owner" Json.asText?
    method := ← fields.required "method" Json.asText?
    argumentTypes := ← fields.withDefault "argument_types" [] Json.asTexts? }

end CallSite

namespace ClassDescriptor

def toJson (descriptor : ClassDescriptor) : Json :=
  .object [
    ("name", .text descriptor.name),
    ("package", .text descriptor.package),
    ("annotations", .texts descriptor.annotations.toList),
    ("superclass", .optional .text descriptor.superclass),
    ("interfaces", .texts descriptor.interfaces),
    ("references", .texts descriptor.references.toList),
    ("visibility", .text descriptor.visibility.word),
    ("calls", .list (descriptor.calls.map CallSite.toJson))]

def fieldNames : List String :=
  ["name", "package", "annotations", "superclass", "interfaces", "references", "visibility",
    "calls"]

/-- The package is left empty where none is given. -/
def ofJson? (document : Json) : Option ClassDescriptor := do
  let fields ← document.fields? fieldNames
  return {
    name := ← fields.required "name" Json.asText?
    package := ← fields.withDefault "package" "" Json.asText?
    annotations := .ofList (← fields.withDefault "annotations" [] Json.asTexts?)
    superclass := ← fields.optional "superclass" Json.asText?
    interfaces := ← fields.withDefault "interfaces" [] Json.asTexts?
    references := .ofList (← fields.withDefault "references" [] Json.asTexts?)
    visibility := ← fields.withDefault "visibility" .publicAccess Visibility.ofJson?
    calls := ← fields.withDefault "calls" [] (Json.asListOf? CallSite.ofJson?) }

end ClassDescriptor

namespace ClassGraph

def toJson (graph : ClassGraph) : Json :=
  .list (graph.classes.map ClassDescriptor.toJson)

def ofText (text : String) : Except ClassGraphError ClassGraph :=
  match (Json.ofString? text).bind (Json.asListOf? ClassDescriptor.ofJson?) with
  | some descriptors => ofList descriptors
  | none => .error .malformed

end ClassGraph

end ModuleBoundary
