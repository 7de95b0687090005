import ModuleBoundary.FileSystem

/-! Files held in memory by the exact text of their paths, without directories. -/

set_option autoImplicit false

namespace ModuleBoundary

/-- Files in the order in which they came. A file without content is there but locked. -/
structure MemoryFiles where
  files : List (String × Option String)
  readOnly : Bool := false
  deriving DecidableEq

namespace MemoryFiles

def has (memory : MemoryFiles) (path : String) : Bool := (memory.files.lookup path).isSome

def read (memory : MemoryFiles) (path : String) : Except FileError String :=
  match memory.files.lookup path with
  | none => .error (.missing path)
  | some none => .error (.locked path)
  | some (some content) => .ok content

def put (memory : MemoryFiles) (path content : String) : MemoryFiles :=
  if memory.has path then
    { memory with files := memory.files.map fun file =>
        if file.1 = path then (path, some content) else file }
  else { memory with files := memory.files ++ [(path, some content)] }

def write (memory : MemoryFiles) (path content : String) : Except FileError MemoryFiles :=
  if memory.readOnly then .error .readOnly else .ok (memory.put path content)

/-- A failed write changes nothing. -/
def system : FileSystem (StateM MemoryFiles) where
  exists? path := return (← get).has path
  read path := return (← get).read path
  write path content := do
    match (← get).write path content with
    | .ok memory => set memory; return .ok ()
    | .error e => return .error e

end MemoryFiles

end ModuleBoundary
