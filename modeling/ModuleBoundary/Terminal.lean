/-! Messages on a terminal, with or without color. -/

set_option autoImplicit false

namespace ModuleBoundary

/-- What has been written to the two output channels. -/
structure Transcript where
  output : String := ""
  errors : String := ""
  deriving DecidableEq

instance : Append Transcript where
  append first second := ⟨first.output ++ second.output, first.errors ++ second.errors⟩

namespace Terminal

/-- What a piece of text is to the reader. -/
inductive Role where
  | error
  | warning
  | success
  | faint
  | progress
  | path
  | figure
  | heading
  | rule
  deriving DecidableEq

/-- The display attributes of a role: brightness, then color. -/
def Role.codes : Role → String
  | .error => "1;31"
  | .warning => "1;33"
  | .success => "1;32"
  | .faint => "2"
  | .progress => "34"
  | .path => "97"
  | .figure => "36"
  | .heading => "1"
  | .rule => "31"

def Role.opening (role : Role) : List Char := ['\x1b', '['] ++ role.codes.toList ++ ['m']

def closing : List Char := ['\x1b', '[', '0', 'm']

/-- Text in which the style is opened again after everything that closes it. -/
def reopened (opening : List Char) : List Char → List Char
  | '\x1b' :: '[' :: '0' :: 'm' :: rest => closing ++ opening ++ reopened opening rest
  | letter :: rest => letter :: reopened opening rest
  | [] => []

def styled (color : Bool) (role : Role) (text : String) : String :=
  if color then String.ofList (role.opening ++ reopened role.opening text.toList ++ closing)
  else text

variable (color : Bool)

def path (path : String) : String := styled color .path path

/-- A rule in brackets. -/
def rule (word : String) : String := styled color .rule ("[" ++ word ++ "]")

/-- An indented label with its value. -/
def metric (label value : String) : String :=
  "  " ++ styled color .faint label ++ ": " ++ styled color .figure value

def error (message : String) : Transcript :=
  { errors := styled color .error "error:" ++ " " ++ message ++ "\n" }

def warning (message : String) : Transcript :=
  { errors := styled color .warning "warning:" ++ " " ++ message ++ "\n" }

def success (message : String) : Transcript :=
  { output := styled color .success "✓" ++ " " ++ message ++ "\n" }

def hint (message : String) : Transcript :=
  { errors := styled color .faint "hint:" ++ " " ++ styled color .faint message ++ "\n" }

def status (message : String) : Transcript :=
  { output := styled color .progress "→" ++ " " ++ message ++ "\n" }

def heading (title : String) : Transcript :=
  { output := "\n" ++ styled color .heading title ++ "\n" }

end Terminal

end ModuleBoundary
