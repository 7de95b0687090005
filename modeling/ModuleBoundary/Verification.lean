import ModuleBoundary.ClassGraph.Json
import ModuleBoundary.Configuration.Toml
import ModuleBoundary.FileSystem
import ModuleBoundary.Path

/-! Verifying the modules that a file of class metadata describes. -/

set_option autoImplicit false

namespace ModuleBoundary

inductive ConfigurationError where
  | file (cause : FileError)
  | malformed
  deriving DecidableEq

def ConfigurationError.message : ConfigurationError → String
  | .file cause => s!"Failed to read config file: {cause.message}"
  | .malformed => "Failed to parse config file: not a configuration"

inductive VerificationError where
  | pathNotFound (path : String)
  /-- Neither the request nor the configuration names a base package. -/
  | missingBasePackage
  | configuration (cause : ConfigurationError)
  | classes (cause : ClassGraphError)
  | modules (cause : ModuleError)
  | file (cause : FileError)
  deriving DecidableEq

def VerificationError.message : VerificationError → String
  | .pathNotFound path => s!"Path not found: {path}"
  | .missingBasePackage =>
    "No base package given; pass one or set base_package in .modbound.toml"
  | .configuration cause => s!"Configuration error: {cause.message}"
  | .classes cause => s!"Class metadata error: {cause.message}"
  | .modules cause => s!"Module error: {cause.message}"
  | .file cause => s!"IO error: {cause.message}"

/-- What to verify. The configuration is looked up beside the class metadata unless a
directory is given. -/
structure VerificationRequest where
  classes : String
  basePackage : Option String := none
  configurationDirectory : Option String := none
  deriving DecidableEq

variable {m : Type → Type} [Monad m]

namespace Configuration

def fileName : String := ".modbound.toml"

/-- The configuration in a directory, or the preset where the directory has none. -/
def load (files : FileSystem m) (directory : String) :
    m (Except ConfigurationError Configuration) := do
  let path := Path.child directory fileName
  unless ← files.exists? path do return .ok .preset
  match ← files.read path with
  | .error e => return .error (.file e)
  | .ok text => return (ofText? text).elim (.error .malformed) .ok

end Configuration

def ClassGraph.load (files : FileSystem m) (path : String) :
    m (Except VerificationError ClassGraph) := do
  match ← files.read path with
  | .error e => return .error (.file e)
  | .ok text => return (ofText text).mapError .classes

namespace VerificationRequest

def directory (request : VerificationRequest) : String :=
  (request.configurationDirectory.or (Path.parent? request.classes)).getD "."

def projectName (request : VerificationRequest) : String :=
  (Path.stem? request.classes).getD "project"

/-- The analysis of classes under a configuration. A base package in the request comes
before the configured one. -/
def analysis (request : VerificationRequest) (configuration : Configuration)
    (classes : ClassGraph) : Except VerificationError Analysis :=
  match request.basePackage.or configuration.basePackage with
  | none => .error .missingBasePackage
  | some basePackage =>
    (analyze request.projectName classes basePackage configuration.settings).mapError .modules

end VerificationRequest

/-- Load the configuration and then the classes, and analyze them. -/
def verify (files : FileSystem m) (request : VerificationRequest) :
    m (Except VerificationError Analysis) := do
  unless ← files.exists? request.classes do return .error (.pathNotFound request.classes)
  match ← Configuration.load files request.directory with
  | .error e => return .error (.configuration e)
  | .ok configuration =>
    match ← ClassGraph.load files request.classes with
    | .error e => return .error e
    | .ok classes => return request.analysis configuration classes

end ModuleBoundary
