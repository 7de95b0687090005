/-! Architecture rules and the violations found of them. -/

set_option autoImplicit false

namespace ModuleBoundary

/-- The rules, in the order of their weight in a report. -/
inductive Rule where
  | cycle
  | undeclaredDependency
  | internalAccess
  deriving DecidableEq, Repr

namespace Rule

def all : List Rule := [.cycle, .undeclaredDependency, .internalAccess]

def priority : Rule → Nat
  | .cycle => 0
  | .undeclaredDependency => 1
  | .internalAccess => 2

def word : Rule → String
  | .cycle => "cycle"
  | .undeclaredDependency => "undeclared-dependency"
  | .internalAccess => "internal-access"

def ofWord? : String → Option Rule
  | "cycle" => some .cycle
  | "undeclared-dependency" => some .undeclaredDependency
  | "internal-access" => some .internalAccess
  | _ => none

/-- Upper case counts as lower case and an underscore as a hyphen. Only ASCII letters
have their case dropped: no other character has a lower case that occurs in a rule. -/
def normalized (name : String) : String :=
  String.ofList (name.toList.map fun c => if c = '_' then '-' else c.toLower)

/-- The rule a user names, by its word or a plural of it. -/
def ofName? (name : String) : Option Rule :=
  match normalized name with
  | "cycles" => some .cycle
  | "undeclared-dependencies" => some .undeclaredDependency
  | word => ofWord? word

def unknownMessage (name : String) : String := s!"Unknown rule: {name}"

end Rule

/-- One finding. The modules of a cycle are in cycle order; of other findings they are
the offending module and the one it depends on. -/
structure Violation where
  rule : Rule
  modules : List String
  source : Option String := none
  target : Option String := none
  message : String
  deriving DecidableEq

namespace Violation

/-- The message goes round the cycle once and names its first module again. -/
def cycle (modules : List String) : Violation where
  rule := .cycle
  modules := modules
  message := "Cycle detected: " ++ " -> ".intercalate (modules ++ modules.head?.toList)

def undeclaredDependency (module dependency source target : String) (occurrences : Nat) :
    Violation where
  rule := .undeclaredDependency
  modules := [module, dependency]
  source := source
  target := target
  message :=
    s!"Module '{module}' depends on non-allowed module '{dependency}' " ++
      s!"({occurrences} references, e.g. {source} -> {target})"

def internalAccess (module dependency source target : String) : Violation where
  rule := .internalAccess
  modules := [module, dependency]
  source := source
  target := target
  message :=
    s!"Module '{module}' accesses non-exposed type {target} of module '{dependency}' " ++
      s!"from {source}"

def firstModule (violation : Violation) : String := violation.modules.headD ""

/-- By rule, first module, source, target and message; an absent part counts as empty. -/
def order : Violation → Violation → Ordering :=
  compareLex (compareOn (·.rule.priority)) <|
  compareLex (compareOn firstModule) <|
  compareLex (compareOn (·.source.getD "")) <|
  compareLex (compareOn (·.target.getD "")) <|
  compareOn message

def text (violation : Violation) : String := s!"[{violation.rule.word}] {violation.message}"

end Violation

end ModuleBoundary
