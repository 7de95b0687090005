/-! Dotted names: packages and the classes in them.

A package name is read as its segments, the pieces between its dots. Containment
is decided on the characters of the two names; `segments` is the reading it
stands for.
-/

set_option autoImplicit false

namespace ModuleBoundary.Package

/-- The pieces between the dots. There is always at least one, and it may be empty. -/
def segments (package : String) : List (List Char) := package.toList.splitOn '.'

def ofSegments (pieces : List (List Char)) : String :=
  String.ofList (['.'].intercalate pieces)

/-- A well-formed package name has no empty segment. -/
def isValid (package : String) : Bool := (segments package).all (!·.isEmpty)

/-- The part of a class name before its last dot, empty without a dot. -/
def ofClass (className : String) : String := ofSegments (segments className).dropLast

/-- The last segment, which names the module that a package is the base of. -/
def lastSegment (package : String) : String :=
  String.ofList ((segments package).getLastD [])

/-- What follows `package` and a dot in `name`. -/
def below? (package name : String) : Option (List Char) :=
  match package.toList.isPrefixOf? name.toList with
  | some ('.' :: rest) => some rest
  | _ => none

/-- `candidate` is `package` itself or one of its sub-packages. -/
def contains (package candidate : String) : Bool :=
  candidate == package || (below? package candidate).isSome

/-- The direct sub-package of `package` that `candidate` lives in or below. -/
def child? (package candidate : String) : Option String :=
  (below? package candidate).map fun rest =>
    package ++ "." ++ String.ofList ((rest.splitOn '.').headD [])

end ModuleBoundary.Package
