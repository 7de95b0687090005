import ModuleBoundary.CommandLine.Help
import ModuleBoundary.LogFilter
import ModuleBoundary.Text.Utf8

/-! The program: arguments in, messages and an exit code out. -/

set_option autoImplicit false

namespace ModuleBoundary

/-! The files of the operating system. -/
namespace SystemFiles

def fault : IO.Error → FileError
  | .noFileOrDirectory _ code details => .refused code.toNat details
  | .alreadyExists _ code details => .refused code.toNat details
  | .permissionDenied _ code details => .refused code.toNat details
  | .inappropriateType _ code details => .refused code.toNat details
  | .resourceExhausted _ code details => .refused code.toNat details
  | .invalidArgument _ code details => .refused code.toNat details
  | e => .refused 0 (toString e)

def attempt {α : Type} (action : IO α) : IO (Except FileError α) := do
  try return .ok (← action)
  catch e => return .error (fault e)

def read (path : String) : IO (Except FileError String) := do
  match ← attempt (IO.FS.readBinFile path) with
  | .error e => return .error e
  | .ok octets => return (Text.ofUtf8? octets.toList).elim (.error .notText) .ok

def write (path content : String) : IO (Except FileError Unit) :=
  attempt do
    let above := (Path.parent? path).getD ""
    unless above.isEmpty do IO.FS.createDirAll above
    IO.FS.writeFile path content

def system : FileSystem IO where
  exists? path := return (← attempt (IO.FS.realPath path)).toBool
  read := read
  write := write

end SystemFiles

def Outcome.tell (outcome : Outcome) : IO UInt32 := do
  IO.print outcome.transcript.output
  IO.eprint outcome.transcript.errors
  return outcome.status.code.toUInt32

def run (arguments : List String) : IO UInt32 := do
  let color := (← (← IO.getStdout).isTty) && (← IO.getEnv "NO_COLOR").isNone
  match CommandLine.read arguments with
  | .error .help => IO.print CommandLine.helpText; return 0
  | .error .version => IO.print CommandLine.versionText; return 0
  | .error (.misuse error) => (Command.failed color error.message).tell
  | .ok invocation =>
    if LogFilter.isValid invocation.logLevel then
      (← Command.run SystemFiles.system color invocation.command).tell
    else
      (Command.failed color s!"Invalid log level '{invocation.logLevel}'").tell

end ModuleBoundary

def main (arguments : List String) : IO UInt32 := ModuleBoundary.run arguments
