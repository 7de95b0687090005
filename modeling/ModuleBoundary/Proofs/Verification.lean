import ModuleBoundary.Proofs.Configuration
import ModuleBoundary.Proofs.FileSystem
import ModuleBoundary.Verification

/-! What a verification makes of what is at two paths: that of the class metadata and that of the
configuration. It changes nothing.
-/

set_option autoImplicit false

namespace ModuleBoundary

/-- The configuration that something at its path stands for. -/
def Configuration.ofFound : Option (Except FileError String) → Except ConfigurationError Configuration
  | none => .ok .preset
  | some (.error e) => .error (.file e)
  | some (.ok text) => (ofText? text).elim (.error .malformed) .ok

/-- The template stands for what is taken where there is no configuration. -/
theorem Configuration.ofFound_template : ofFound (some (.ok template)) = ofFound none := by
  simp only [ofFound, ofText?_template, Option.elim_some]

def ClassGraph.ofFound : Except FileError String → Except VerificationError ClassGraph
  | .error e => .error (.file e)
  | .ok text => (ofText text).mapError .classes

namespace VerificationRequest

def configurationPath (request : VerificationRequest) : String :=
  Path.child request.directory Configuration.fileName

/-- What a verification comes to, given what is at each path. -/
def verdict (request : VerificationRequest) (look : String → Option (Except FileError String)) :
    Except VerificationError Analysis :=
  match look request.classes, Configuration.ofFound (look request.configurationPath) with
  | none, _ => .error (.pathNotFound request.classes)
  | some _, .error e => .error (.configuration e)
  | some found, .ok configuration =>
    (ClassGraph.ofFound found).bind (request.analysis configuration)

end VerificationRequest

section
variable {σ : Type} {files : FileSystem (StateM σ)} (looks : files.LooksOnly) (state : σ)

include looks

theorem Configuration.load_run (directory : String) :
    load files directory state = (ofFound (files.look state (Path.child directory fileName)), state) := by
  unfold load
  rw [runs_bind looks.exists?_run]
  cases seen : files.look state (Path.child directory fileName) with
  | none => rfl
  | some found =>
    rw [Option.isSome_some, if_pos rfl, runs_bind (looks.read_run seen)]
    cases found <;> rfl

theorem ClassGraph.load_run {path : String} {found : Except FileError String}
    (seen : files.look state path = some found) :
    load files path state = (ofFound found, state) := by
  unfold load
  rw [runs_bind (looks.read_run seen)]
  cases found <;> rfl

theorem verify_run (request : VerificationRequest) :
    verify files request state = (request.verdict (files.look state), state) := by
  unfold verify VerificationRequest.verdict VerificationRequest.configurationPath
  rw [runs_bind looks.exists?_run]
  cases seen : files.look state request.classes with
  | none => rfl
  | some found =>
    rw [Option.isSome_some, if_pos rfl, runs_bind (Configuration.load_run looks state _)]
    cases Configuration.ofFound
      (files.look state (Path.child request.directory Configuration.fileName)) with
    | error e => rfl
    | ok configuration =>
      change _ = ((ClassGraph.ofFound found).bind (request.analysis configuration), state)
      refine (runs_bind (ClassGraph.load_run looks state seen)).trans ?_
      cases ClassGraph.ofFound found <;> rfl

end

end ModuleBoundary
