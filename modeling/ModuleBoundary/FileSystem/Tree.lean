import ModuleBoundary.FileSystem
import ModuleBoundary.Path
import ModuleBoundary.Text.Utf8

/-! Files in directories, as an operating system keeps them.

A path is followed name by name, and every name but the last has to lead to a
directory. There are no links, and nothing is forbidden.
-/

set_option autoImplicit false

namespace ModuleBoundary

inductive FileNode where
  | file (octets : List UInt8)
  | directory
  deriving DecidableEq

/-- Names from the root. -/
abbrev Place := List String

/-- What is at each place below the root, and the directory from which relative paths go. -/
structure FileTree where
  nodes : List (Place × FileNode)
  working : Place

namespace FileTree

def node? (tree : FileTree) (place : Place) : Option FileNode :=
  if place.isEmpty then some .directory else tree.nodes.lookup place

def put (tree : FileTree) (place : Place) (node : FileNode) : FileTree :=
  { tree with nodes := tree.nodes.filter (fun entry => entry.1 != place) ++ [(place, node)] }

/-- A place with all directories above it. -/
def putBelow (tree : FileTree) (place : Place) (node : FileNode) : FileTree :=
  let above := (List.range place.length).map place.take
  let missing := above.filter fun outer => (tree.node? outer).isNone
  (missing.foldl (·.put · .directory) tree).put place node

def namesOf (path : String) : List String :=
  (path.toList.splitOn '/').map String.ofList

/-- Files and directories below a working directory, with their paths from there. -/
def ofFiles (working : Place) (files : List (String × FileNode)) : FileTree :=
  let empty : FileTree := ⟨[], working⟩
  files.foldl
    (fun tree (path, node) =>
      let place := working ++ (namesOf path).filter (· ≠ "")
      if node = .directory ∧ (tree.node? place).isSome then tree else tree.putBelow place node)
    (empty.putBelow working .directory)

/-- What is below the working directory, by the path from there. -/
def files (tree : FileTree) : List (String × FileNode) :=
  tree.nodes.filterMap fun (place, node) =>
    if tree.working.isPrefixOf place ∧ place ≠ tree.working then
      some ("/".intercalate (place.drop tree.working.length), node)
    else none

/-- Follow one name. There has to be a directory to follow it from, but there may be
nothing where it leads. -/
def follow (tree : FileTree) (place : Place) (name : String) : Except FileError Place :=
  match tree.node? place with
  | none => .error .noEntry
  | some (.file _) => .error .notADirectory
  | some .directory =>
    if name = "" ∨ name = "." then .ok place
    else if name = ".." then .ok place.dropLast
    else if 255 < name.utf8ByteSize then .error .nameTooLong
    else .ok (place ++ [name])

def start (tree : FileTree) (path : String) : Place :=
  if path.toList.head? = some '/' then [] else tree.working

/-- Where some names lead from where the path begins. -/
def locate (tree : FileTree) (path : String) (names : List String) : Except FileError Place :=
  if path.toList.contains '\x00' then .error .nulInName
  else if path.isEmpty then .error .noEntry
  else if 4095 < path.utf8ByteSize then .error .nameTooLong
  else names.foldlM tree.follow (tree.start path)

def find (tree : FileTree) (path : String) : Except FileError FileNode := do
  let place ← tree.locate path (namesOf path)
  match tree.node? place with
  | some node => .ok node
  | none => .error .noEntry

def has (tree : FileTree) (path : String) : Bool := (tree.find path).toBool

def isDirectory (tree : FileTree) (path : String) : Bool :=
  match tree.find path with
  | .ok .directory => true
  | _ => false

def read (tree : FileTree) (path : String) : Except FileError String := do
  match ← tree.find path with
  | .directory => .error .isADirectory
  | .file octets => (Text.ofUtf8? octets).elim (.error .notText) .ok

/-- The names of a path without slashes that end it. -/
def namesToMake (path : String) : List String :=
  ((namesOf path).reverse.dropWhile (· == "")).reverse

/-- Make a directory where nothing is yet. -/
def makeDirectory (tree : FileTree) (path : String) : Except FileError FileTree := do
  let place ← tree.locate path (namesToMake path)
  match tree.node? place with
  | some _ => .error .alreadyExists
  | none => .ok (tree.put place .directory)

/-- Make a directory unless it is there, and those above it when they are missing. The
fuel bounds how far up this goes; every parent is shorter than its path. -/
def makeDirectoriesWithin : Nat → FileTree → String → FileTree × Except FileError Unit
  | 0, tree, _ => (tree, .ok ())
  | fuel + 1, tree, path =>
    let accept (tree : FileTree) (e : FileError) : FileTree × Except FileError Unit :=
      (tree, if tree.isDirectory path then .ok () else .error e)
    if path.isEmpty then (tree, .ok ())
    else match tree.makeDirectory path with
      | .ok made => (made, .ok ())
      | .error e =>
        if e ≠ .noEntry then accept tree e
        else match Path.parent? path with
          | none => (tree, .error e)
          | some above =>
            match makeDirectoriesWithin fuel tree above with
            | (tree, .error e) => (tree, .error e)
            | (tree, .ok ()) =>
              match tree.makeDirectory path with
              | .ok made => (made, .ok ())
              | .error e => accept tree e

def makeDirectories (tree : FileTree) (path : String) : FileTree × Except FileError Unit :=
  makeDirectoriesWithin (path.length + 1) tree path

/-- Write a file whose directory is there. A path that ends in a slash can only be a
directory, so its last name is not even followed. -/
def writeFile (tree : FileTree) (path content : String) : Except FileError FileTree := do
  let names := namesToMake path
  if names ≠ namesOf path then
    let _ ← tree.locate path (names.dropLast ++ [""])
    .error .isADirectory
  else
    let place ← tree.locate path names
    match tree.node? place with
    | some .directory => .error .isADirectory
    | _ => .ok (tree.put place (.file (Text.toUtf8 content)))

/-- Directories that were made stay when the file itself cannot be written. -/
def write (tree : FileTree) (path content : String) : FileTree × Except FileError Unit :=
  match tree.makeDirectories ((Path.parent? path).getD "") with
  | (tree, .error e) => (tree, .error e)
  | (tree, .ok ()) =>
    match tree.writeFile path content with
    | .ok written => (written, .ok ())
    | .error e => (tree, .error e)

def system : FileSystem (StateM FileTree) where
  exists? path := return (← get).has path
  read path := return (← get).read path
  write path content := modifyGet fun tree => (tree.write path content).swap

end FileTree

end ModuleBoundary
