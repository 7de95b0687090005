/-! What is needed of files, and how their use fails. -/

set_option autoImplicit false

namespace ModuleBoundary

inductive FileError where
  /-- No file has the path. -/
  | missing (path : String)
  /-- The file is there but may not be read. -/
  | locked (path : String)
  /-- Nothing may be written. -/
  | readOnly
  /-- The octets of the file are not text. -/
  | notText
  /-- No file can have a name with this character in it. -/
  | nulInName
  /-- The operating system refused, with its number and wording. -/
  | refused (code : Nat) (reason : String)
  deriving DecidableEq

namespace FileError

abbrev noEntry : FileError := .refused 2 "No such file or directory"

abbrev alreadyExists : FileError := .refused 17 "File exists"

abbrev notADirectory : FileError := .refused 20 "Not a directory"

abbrev isADirectory : FileError := .refused 21 "Is a directory"

abbrev nameTooLong : FileError := .refused 36 "File name too long"

def message : FileError → String
  | .missing path => s!"file not found: {path}"
  | .locked path => s!"permission denied: {path}"
  | .readOnly => "read-only file system"
  | .notText => "stream did not contain valid UTF-8"
  | .nulInName => "file name contained an unexpected NUL byte"
  | .refused code reason => s!"{reason} (os error {code})"

end FileError

/-- Files by their paths, used in a monad. Missing parent directories are made on writing. -/
structure FileSystem (m : Type → Type) where
  exists? : String → m Bool
  read : String → m (Except FileError String)
  write : String → String → m (Except FileError Unit)

end ModuleBoundary
