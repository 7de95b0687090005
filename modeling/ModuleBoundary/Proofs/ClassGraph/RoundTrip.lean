import ModuleBoundary.ClassGraph.Json
import ModuleBoundary.Proofs.ClassGraph.Rearrangement
import ModuleBoundary.Proofs.Json.Record
import ModuleBoundary.Proofs.Json.RoundTrip

/-! Class metadata read back from its JSON form.

A graph keeps classes with the packages their names tell, so that reading them once more derives
no other package and finds no other clash. What is read is the graph that was written.
-/

set_option autoImplicit false

namespace ModuleBoundary

open Json

theorem Visibility.ofJson?_word (visibility : Visibility) :
    ofJson? (.text visibility.word) = some visibility := by
  cases visibility <;> rfl

theorem CallSite.ofJson?_toJson (call : CallSite) : ofJson? call.toJson = some call := by
  have fields : call.toJson.fields? ["owner", "method", "argument_types"] = _ :=
    fields?_object rfl (by decide)
  unfold ofJson?
  rw [fields]
  simp [Fields.required, Fields.withDefault, List.lookup_cons, asText?]

namespace ClassDescriptor

theorem ofJson?_toJson (descriptor : ClassDescriptor) : ofJson? descriptor.toJson = some descriptor := by
  have fields : descriptor.toJson.fields? fieldNames = _ := fields?_object rfl (by decide)
  have calls : (Json.list (descriptor.calls.map CallSite.toJson)).asListOf? CallSite.ofJson? =
      some descriptor.calls := asListOf?_map CallSite.ofJson?_toJson _
  unfold ofJson?
  rw [fields, Option.bind_eq_bind, Option.bind_some, Fields.optional_eq restores_text (by rfl)]
  simp [Fields.required, Fields.withDefault, List.lookup_cons, asText?, calls, Visibility.ofJson?_word,
    NameSet.ofList_toList]

/-- A package that was taken from the name once is not changed when it is taken again, not even
where the name tells an empty one. -/
theorem withDerivedPackage_idem (descriptor : ClassDescriptor) :
    descriptor.withDerivedPackage.withDerivedPackage = descriptor.withDerivedPackage := by
  by_cases absent : descriptor.package = ""
  · have derived : descriptor.withDerivedPackage =
        { descriptor with package := Package.ofClass descriptor.name } := if_pos absent
    rw [derived, withDerivedPackage]
    split <;> rfl
  · have kept : descriptor.withDerivedPackage = descriptor := if_neg absent
    rw [kept, kept]

end ClassDescriptor

namespace ClassGraph

variable {descriptors : List ClassDescriptor} {graph : ClassGraph}

theorem insert_withDerivedPackage (graph : ClassGraph) (descriptor : ClassDescriptor) :
    graph.insert descriptor.withDerivedPackage = graph.insert descriptor :=
  congrArg graph.append descriptor.withDerivedPackage_idem

/-- The classes of a graph that was built make this graph again. -/
theorem ofList_classes (built : ofList descriptors = .ok graph) :
    ofList graph.classes = .ok graph := by
  rw [classes_of_ofList built, ofList, List.foldlM_map]
  simp only [insert_withDerivedPackage]
  exact built

theorem asListOf?_toJson (graph : ClassGraph) :
    graph.toJson.asListOf? ClassDescriptor.ofJson? = some graph.classes :=
  asListOf?_map ClassDescriptor.ofJson?_toJson _

/-- Reading a text asks only for the document that it holds. -/
theorem ofText_eq {text : String} (built : ofList descriptors = .ok graph)
    (holds : ofString? text = some graph.toJson) : ofText text = .ok graph := by
  unfold ofText
  rw [holds, Option.bind_some, asListOf?_toJson]
  exact ofList_classes built

/-- Class metadata of distinct names makes a graph, with the packages that the names tell, and
what is written of that graph reads back as it: the same classes in the same order, in the same
packages. It does not matter whether it is written on one line or on many. -/
theorem metadata_reads_back {descriptors : List ClassDescriptor}
    (distinct : (descriptors.map ClassDescriptor.name).Nodup) :
    ∃ graph, ofList descriptors = .ok graph ∧
      graph.classes = descriptors.map ClassDescriptor.withDerivedPackage ∧
      ofText graph.toJson.compact = .ok graph ∧ ofText graph.toJson.pretty = .ok graph := by
  obtain ⟨graph, built, listed⟩ := exists_ofList distinct
  exact ⟨graph, built, listed, ofText_eq built (ofString?_compact _),
    ofText_eq built (ofString?_pretty _)⟩

/-- Classes whose names tell no package, and names that have to be escaped. -/
def unpackagedClasses : List ClassDescriptor := [
  { name := "Main", package := "", superclass := some "x\\Base" },
  { name := ".Hidden", package := "", visibility := .privateAccess },
  { name := "shop.\"Order\"\n", package := "", interfaces := ["shop.Ünit"],
    calls := [⟨"Main", "run\t", [".Hidden"]⟩] }]

theorem unpackagedClasses_read_back :
    (unpackagedClasses.map ClassDescriptor.name).Nodup ∧
    ∃ graph, ofList unpackagedClasses = .ok graph ∧
      graph.classes.map ClassDescriptor.package = ["", "", "shop"] ∧
      ofText graph.toJson.compact = .ok graph ∧ ofText graph.toJson.pretty = .ok graph := by
  have distinct : (unpackagedClasses.map ClassDescriptor.name).Nodup := by decide
  obtain ⟨graph, built, listed, onOneLine, onMany⟩ := metadata_reads_back distinct
  refine ⟨distinct, graph, built, ?_, onOneLine, onMany⟩
  rw [listed]
  decide

end ClassGraph

end ModuleBoundary
