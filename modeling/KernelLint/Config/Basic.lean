import KernelLint.Config.Preset
import KernelLint.Types.Erased

/-!
# Configurations

What a session can be told: how deep to follow helpers, what marks a kernel, which names are
trusted, which vector types are fine, what the task graph is called, and which rules not to run.
-/

namespace KernelLint

/-- The settings of a session. -/
structure Config where
  preset : Preset
  /-- How many calls below the kernel helpers are followed. -/
  maxInlineDepth : Nat
  /-- Endings of the annotation names that mark a kernel. -/
  annotationSuffixes : List String
  /-- Ending of the type of the parameter that marks a kernel. -/
  contextType : String
  /-- What the qualified names of the runtime's own interface begin with. -/
  trustedNamespace : String
  /-- Vector types the device knows. -/
  vectorTypes : List String
  taskGraphType : String
  taskMethod : String
  /-- Names of the rules not to run. -/
  disabledRules : List String
  /-- May kernels of one file be inspected side by side? -/
  parallel : Bool
  deriving DecidableEq

namespace Config

def defaultTrustedNamespace : String := "uk.ac.manchester.tornado.api."

def defaultContextType : String := "KernelContext"

/-- How deep helpers are followed when nothing else is said. -/
def defaultDepth : Nat := 10

/-- The configuration a preset stands for. -/
def ofPreset (preset : Preset) : Config where
  preset := preset
  maxInlineDepth := preset.depth
  annotationSuffixes := ["Parallel", "Reduce"]
  contextType := defaultContextType
  trustedNamespace := defaultTrustedNamespace
  vectorTypes := ["Int3"]
  taskGraphType := "uk.ac.manchester.tornado.api.TaskGraph"
  taskMethod := "task"
  disabledRules := []
  parallel := preset ≠ .fast

instance : Inhabited Config := ⟨ofPreset .balanced⟩

/-- What the configuration calls itself. -/
def title : String := "InspectionConfig"

/-- Do names of this sort belong to the runtime's own interface? -/
def isTrusted (c : Config) (qualifiedName : String) : Bool :=
  Text.startsWith qualifiedName c.trustedNamespace

/-- Does an annotation of this name mark a kernel? -/
def marksKernel (c : Config) (name : String) : Bool :=
  c.annotationSuffixes.any (Text.endsWith name ·)

def isEnabled (c : Config) (rule : RuleKind) : Bool :=
  !c.disabledRules.contains rule.label

/-- The rules that run, in order. -/
def enabledRules (c : Config) : List RuleKind :=
  RuleKind.all.filter c.isEnabled

def disable (c : Config) (rule : RuleKind) : Config :=
  if c.disabledRules.contains rule.label then c
  else { c with disabledRules := c.disabledRules ++ [rule.label] }

/-- Can the device hold values of a type? Primitives and one-dimensional arrays of them, types of
the runtime and the listed vector types; nothing is held against an unknown type. -/
def supports (c : Config) (t : ErasedType) : Bool :=
  if t.isUnknown then true
  else if t.hasPrimitiveElement then t.dims ≤ 1
  else if c.isTrusted t.name then true
  else t.dims = 0 && c.vectorTypes.any fun v => v = t.name || v = t.simpleName

def depthRange : Nat × Nat := (1, 64)

/-- The faults are looked for in a fixed order and the first one found is reported. -/
def validate (c : Config) : Except ConfigError Unit :=
  if c.maxInlineDepth < depthRange.1 ∨ depthRange.2 < c.maxInlineDepth then
    .error (.outOfRange "max_inline_depth" c.maxInlineDepth depthRange.1 depthRange.2
      "Helpers are inlined at least one level deep; deeper chains are truncated")
  else if c.annotationSuffixes.contains "" then .error .emptySuffix
  else if c.contextType = "" then .error .emptyContextType
  else if c.trustedNamespace = "" then .error .emptyTrustedNamespace
  else match c.disabledRules.find? fun name => (RuleKind.ofLabel? name).isNone with
    | some name => .error (.unknownRule name)
    | none => .ok ()

end Config

end KernelLint
