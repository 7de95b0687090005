import ModuleBoundary.ClassGraph
import ModuleBoundary.Text.Uppercase

/-! What is declared of an application module, and why one cannot be built. -/

set_option autoImplicit false

namespace ModuleBoundary

/-- A module is all classes under its base package. Without a list of allowed
dependencies it may depend on every other module. -/
structure ModuleDefinition where
  basePackage : String
  displayName : Option String := none
  allowedDependencies : Option (List String) := none
  deriving DecidableEq

namespace ModuleDefinition

def name (definition : ModuleDefinition) : String :=
  Package.lastSegment definition.basePackage

def shownName (definition : ModuleDefinition) : String :=
  definition.displayName.getD (Text.capitalize definition.name)

/-- Whether an entry of the list names the other module or its base package. -/
def allows (definition other : ModuleDefinition) : Bool :=
  definition.allowedDependencies.all fun allowed =>
    allowed.any fun entry => entry == other.name || entry == other.basePackage

end ModuleDefinition

inductive ModuleError where
  | emptyModule (package : String)
  | invalidBasePackage (package : String)
  | duplicateName (name first second : String)
  | classes (cause : ClassGraphError)
  deriving DecidableEq

def ModuleError.message : ModuleError → String
  | .emptyModule package => s!"Module base package {package} does not contain any classes"
  | .invalidBasePackage package => s!"Invalid module base package: '{package}'"
  | .duplicateName name first second => s!"Duplicate module name {name} ({first} and {second})"
  | .classes cause => cause.message

end ModuleBoundary
