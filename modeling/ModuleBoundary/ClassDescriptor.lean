import ModuleBoundary.NameSet
import ModuleBoundary.Package

/-! What is known of one class: its name, its package, its supertypes, the classes it
refers to and the calls it makes.
-/

set_option autoImplicit false

namespace ModuleBoundary

inductive Visibility where
  | publicAccess
  | protectedAccess
  | packageAccess
  | privateAccess
  deriving DecidableEq, Repr

/-- A call made from a class, with the static types of the arguments handed over. -/
structure CallSite where
  owner : String
  method : String
  argumentTypes : List String
  deriving DecidableEq

structure ClassDescriptor where
  name : String
  package : String
  annotations : NameSet := ∅
  superclass : Option String := none
  interfaces : List String := []
  references : NameSet := ∅
  visibility : Visibility := .publicAccess
  calls : List CallSite := []
  deriving DecidableEq

namespace ClassDescriptor

/-- A public class without any relation, in the package its name tells. -/
def named (name : String) : ClassDescriptor where
  name := name
  package := Package.ofClass name

def withAnnotation (descriptor : ClassDescriptor) (name : String) : ClassDescriptor :=
  { descriptor with annotations := descriptor.annotations.insert name }

def withSuperclass (descriptor : ClassDescriptor) (superclass : String) : ClassDescriptor :=
  { descriptor with superclass := some superclass }

def withInterface (descriptor : ClassDescriptor) (interface : String) : ClassDescriptor :=
  { descriptor with interfaces := descriptor.interfaces ++ [interface] }

def withReference (descriptor : ClassDescriptor) (target : String) : ClassDescriptor :=
  { descriptor with references := descriptor.references.insert target }

def withVisibility (descriptor : ClassDescriptor) (visibility : Visibility) : ClassDescriptor :=
  { descriptor with visibility := visibility }

/-- Record a call. Its owner and its argument types are references too. -/
def withCall (descriptor : ClassDescriptor) (call : CallSite) : ClassDescriptor :=
  { descriptor with
    references := (call.owner :: call.argumentTypes).foldl NameSet.insert descriptor.references
    calls := descriptor.calls ++ [call] }

/-- Take the package from the name where none is given. -/
def withDerivedPackage (descriptor : ClassDescriptor) : ClassDescriptor :=
  if descriptor.package = "" then
    { descriptor with package := Package.ofClass descriptor.name }
  else descriptor

/-- The name without the package; the whole name where it does not begin with it. -/
def simpleName (descriptor : ClassDescriptor) : String :=
  ((Package.below? descriptor.package descriptor.name).map String.ofList).getD descriptor.name

/-- Direct supertypes, the superclass first. -/
def supertypes (descriptor : ClassDescriptor) : List String :=
  descriptor.superclass.toList ++ descriptor.interfaces

def isPublic (descriptor : ClassDescriptor) : Bool := descriptor.visibility = .publicAccess

def residesIn (descriptor : ClassDescriptor) (package : String) : Bool :=
  Package.contains package descriptor.package

@[simp] theorem name_withDerivedPackage (descriptor : ClassDescriptor) :
    descriptor.withDerivedPackage.name = descriptor.name := by
  unfold withDerivedPackage
  split <;> rfl

end ClassDescriptor

end ModuleBoundary
