import KernelLint.Config.Basic

/-!
# Configuration documents

The first version of the format: a version, an optional preset and optional overrides. How a
document is written in a text is left to a format, which may fail at reading and at writing.
-/

namespace KernelLint

/-- What a document says instead of the preset. -/
structure Overrides where
  maxInlineDepth : Option Nat := none
  annotationSuffixes : Option (List String) := none
  contextType : Option String := none
  trustedNamespace : Option String := none
  vectorTypes : Option (List String) := none
  taskGraphType : Option String := none
  taskMethod : Option String := none
  disabledRules : Option (List String) := none
  parallel : Option Bool := none
  deriving DecidableEq, Inhabited

structure ConfigDocument where
  version : Option Nat := none
  preset : Option String := none
  overrides : Option Overrides := none
  deriving DecidableEq, Inhabited

/-- A way to write documents in texts and to read them again. -/
structure DocumentFormat where
  read : String → Option ConfigDocument
  write : ConfigDocument → Option String

namespace Config

/-! ## Configurations and documents -/

/-- Put the overrides over a configuration. -/
def override (c : Config) (o : Overrides) : Config :=
  { c with
    maxInlineDepth := o.maxInlineDepth.getD c.maxInlineDepth
    annotationSuffixes := o.annotationSuffixes.getD c.annotationSuffixes
    contextType := o.contextType.getD c.contextType
    trustedNamespace := o.trustedNamespace.getD c.trustedNamespace
    vectorTypes := o.vectorTypes.getD c.vectorTypes
    taskGraphType := o.taskGraphType.getD c.taskGraphType
    taskMethod := o.taskMethod.getD c.taskMethod
    disabledRules := o.disabledRules.getD c.disabledRules
    parallel := o.parallel.getD c.parallel }

/-- The preset a document names, or the default. -/
def documentPreset (d : ConfigDocument) : Except ConfigError Preset :=
  match d.preset with
  | none => .ok .balanced
  | some name => Preset.parse name

/-- The configuration of a document: version, preset, overrides, and last the faults of the
result. -/
def ofDocument (d : ConfigDocument) : Except ConfigError Config :=
  match d.version with
  | none => .error .missingVersion
  | some version =>
    if version ≠ 1 then .error (.unsupportedVersion version)
    else do
      let preset ← documentPreset d
      let config := (ofPreset preset).override (d.overrides.getD {})
      config.validate
      return config

/-- Read a configuration from a text of a format. -/
def readFrom (f : DocumentFormat) (text : String) : Except ConfigError Config :=
  match f.read text with
  | none => .error .malformed
  | some d => ofDocument d

/-- The document that writes every field as an override. -/
def toDocument (c : Config) : ConfigDocument where
  version := some 1
  preset := some c.preset.label
  overrides := some {
    maxInlineDepth := some c.maxInlineDepth
    annotationSuffixes := some c.annotationSuffixes
    contextType := some c.contextType
    trustedNamespace := some c.trustedNamespace
    vectorTypes := some c.vectorTypes
    taskGraphType := some c.taskGraphType
    taskMethod := some c.taskMethod
    disabledRules := some c.disabledRules
    parallel := some c.parallel }

/-- Write a configuration in a format. -/
def writeTo (f : DocumentFormat) (c : Config) : Except ConfigError String :=
  match f.write c.toDocument with
  | none => .error .malformed
  | some text => .ok text

end Config

end KernelLint
