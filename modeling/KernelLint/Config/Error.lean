import KernelLint.Rule.Kind

/-!
# Faults of a configuration

Every cause for which a configuration is refused, and its wording.
-/

namespace KernelLint

/-- Why a configuration is refused. -/
inductive ConfigError where
  /-- A number outside its range. -/
  | outOfRange (field : String) (value low high : Nat) (hint : String)
  /-- A rule name that no rule has. -/
  | unknownRule (name : String)
  | missingVersion
  | unsupportedVersion (found : Nat)
  | unknownPreset (name : String)
  /-- The document is no configuration document. -/
  | malformed
  /-- The document cannot be read. -/
  | unreadable
  | emptySuffix
  | emptyContextType
  | emptyTrustedNamespace
  deriving DecidableEq

/-- A remark that names the nearest of some candidates. -/
def suggestion (target : String) (candidates : List String) : String :=
  match Text.nearest? target candidates with
  | some best => "Did you mean '" ++ best ++ "'?"
  | none => "No valid rules available"

namespace ConfigError

/-- The fault in words. -/
def message : ConfigError → String
  | .outOfRange field value low high hint =>
    "Invalid range for field '" ++ field ++ "': " ++ toString value ++ " not in " ++ toString low
      ++ "..=" ++ toString high ++ ". " ++ hint
  | .unknownRule name =>
    "Unknown rule '" ++ name ++ "'. " ++ suggestion name RuleKind.labels
  | .missingVersion =>
    "Missing 'version' field in configuration file. Add 'version: 1' to the top of your YAML file."
  | .unsupportedVersion found =>
    "Unsupported configuration version " ++ toString found ++ ". Supported versions: 1"
  | .unknownPreset name =>
    "Unknown preset '" ++ name ++ "'. Valid presets: fast, balanced, thorough"
  | .malformed => "YAML parsing error"
  | .unreadable => "IO error"
  | .emptySuffix => "kernel_annotation_suffixes must not contain empty entries"
  | .emptyContextType => "kernel_context_type must not be empty"
  | .emptyTrustedNamespace => "trusted_namespace must not be empty"

end ConfigError

/-- The rule of a name, or the complaint about it. -/
def RuleKind.parse (name : String) : Except ConfigError RuleKind :=
  match RuleKind.ofLabel? name with
  | some rule => .ok rule
  | none => .error (.unknownRule name)

end KernelLint
