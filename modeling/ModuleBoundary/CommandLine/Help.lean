import ModuleBoundary.CommandLine

/-! What the program says about itself and about arguments that it refuses. -/

set_option autoImplicit false

namespace ModuleBoundary.CommandLine

def versionText : String := "modbound 0.1.0\n"

def helpText : String := String.join ([
  "Verify module boundaries and architecture rules of an application",
  "",
  "Usage: modbound [--log-level <LEVEL>] <COMMAND>",
  "",
  "Commands:",
  "  verify <CLASSES>  Verify class metadata against the module rules",
  "    -b, --base-package <PACKAGE>  Package whose direct sub-packages are the modules",
  "    -f, --format <FORMAT>         markdown (default) or json",
  "    -o, --output <FILE>           Output file (defaults to stdout)",
  "        --config-dir <DIR>        Directory containing .modbound.toml",
  "  init [PATH]       Generate a starter .modbound.toml configuration file"].map (· ++ "\n"))

def UsageError.message : UsageError → String
  | .unknownArgument => "unexpected argument"
  | .invalidValue => "invalid value"
  | .tooManyValues => "unexpected value"
  | .argumentConflict => "an argument cannot be used multiple times"
  | .missingArgument => "a required argument was not provided"
  | .invalidCommand => "unrecognized subcommand"
  | .missingCommand => "a subcommand is required"
  | .nothingGiven => "no arguments were provided"

end ModuleBoundary.CommandLine
