import KernelLint.Config.Document
import KernelLint.Yaml.Node
import KernelLint.Yaml.Printer

/-!
# Documents in YAML

A field that is absent or null leaves the preset's value alone; a field nobody knows is a fault.
-/

namespace KernelLint

namespace ConfigDocument

open Yaml (Node)

/-! ## Reading -/

/-- Is nothing said here? A plain null or an empty plain scalar without a tag; a null tag allows
null only. -/
def absent? : Node → Option Bool
  | .scalar .plain (some "tag:yaml.org,2002:null") text =>
    if Yaml.isNullText text then some true else none
  | .scalar .plain (some _) _ => some false
  | .scalar .plain none text => some (text = "" || Yaml.isNullText text)
  | _ => some false

/-- A value that may be absent; the outer option is failure. -/
def optional {α : Type} (read : Node → Option α) (n : Node) : Option (Option α) :=
  match absent? n with
  | none => none
  | some true => some none
  | some false => (read n).map some

/-- Numbers are plain, or literal blocks with the tag of their kind. -/
def isBare (tag : String) : Node → Bool
  | .scalar .plain _ _ => true
  | .scalar .literal (some t) _ => t = tag
  | _ => false

def text? : Node → Option String
  | .scalar _ _ text => some text
  | _ => none

/-- A natural number up to a bound. -/
def nat? (bound : Nat) (n : Node) : Option Nat :=
  if isBare "tag:yaml.org,2002:int" n then ((text? n).bind Yaml.natText?).filter (· ≤ bound)
  else none

def bool? (n : Node) : Option Bool :=
  if isBare "tag:yaml.org,2002:bool" n then (text? n).bind Yaml.boolText? else none

/-- Is it an empty plain scalar, which stands for an empty collection? -/
def isVoid : Node → Bool
  | .scalar .plain _ "" => true
  | _ => false

def texts? (n : Node) : Option (List String) :=
  match n with
  | .seq items => items.mapM text?
  | _ => if isVoid n then some [] else none

/-- The entries of a mapping with texts as keys. -/
def entries? (n : Node) : Option (List (String × Node)) :=
  match n with
  | .map entries => entries.mapM fun (k, v) => (text? k).map fun key => (key, v)
  | _ => if isVoid n then some [] else none

/-- Are all keys known and none given twice? -/
def keysFit (known : List String) (entries : List (String × Node)) : Bool :=
  let keys := entries.map (·.1)
  keys.all known.contains && keys.eraseDups.length = keys.length

/-- The field of a mapping, absent when it is not written. -/
def field {α : Type} (entries : List (String × Node)) (key : String) (read : Node → Option α) :
    Option (Option α) :=
  match entries.lookup key with
  | none => some none
  | some n => optional read n

def overrideKeys : List String :=
  ["max_inline_depth", "kernel_annotation_suffixes", "kernel_context_type", "trusted_namespace",
    "vector_type_allowlist", "task_graph_type", "task_method_name", "disabled_rules", "parallel"]

def overrides? (n : Node) : Option Overrides := do
  let es ← entries? n
  if keysFit overrideKeys es then
    return {
      maxInlineDepth := ← field es "max_inline_depth" (nat? (Nat.pow 2 64 - 1))
      annotationSuffixes := ← field es "kernel_annotation_suffixes" texts?
      contextType := ← field es "kernel_context_type" text?
      trustedNamespace := ← field es "trusted_namespace" text?
      vectorTypes := ← field es "vector_type_allowlist" texts?
      taskGraphType := ← field es "task_graph_type" text?
      taskMethod := ← field es "task_method_name" text?
      disabledRules := ← field es "disabled_rules" texts?
      parallel := ← field es "parallel" bool? }
  else none

def documentKeys : List String := ["version", "preset", "overrides"]

def ofNode? (n : Node) : Option ConfigDocument := do
  let es ← entries? n
  if keysFit documentKeys es then
    return {
      version := ← field es "version" (nat? (Nat.pow 2 32 - 1))
      preset := ← field es "preset" text?
      overrides := ← field es "overrides" overrides? }
  else none

def parse? (text : String) : Option ConfigDocument :=
  (Yaml.parse? text).bind ofNode?

/-! ## Writing -/

/-- A field that is written only when it is there. -/
def fieldOf {α : Type} (key : String) (make : α → Yaml.Value) :
    Option α → List (String × Yaml.Value)
  | none => []
  | some a => [(key, make a)]

def overrideFields (o : Overrides) : List (String × Yaml.Value) :=
  fieldOf "max_inline_depth" .nat o.maxInlineDepth
    ++ fieldOf "kernel_annotation_suffixes" .texts o.annotationSuffixes
    ++ fieldOf "kernel_context_type" .text o.contextType
    ++ fieldOf "trusted_namespace" .text o.trustedNamespace
    ++ fieldOf "vector_type_allowlist" .texts o.vectorTypes
    ++ fieldOf "task_graph_type" .text o.taskGraphType
    ++ fieldOf "task_method_name" .text o.taskMethod
    ++ fieldOf "disabled_rules" .texts o.disabledRules
    ++ fieldOf "parallel" .bool o.parallel

def render (d : ConfigDocument) : String :=
  Yaml.render (fieldOf "version" .nat d.version ++ fieldOf "preset" .text d.preset
    ++ fieldOf "overrides" (fun o => .record (overrideFields o)) d.overrides)

end ConfigDocument

def DocumentFormat.yaml : DocumentFormat where
  read := ConfigDocument.parse?
  write d := some d.render

namespace Config

def parse (text : String) : Except ConfigError Config := readFrom .yaml text

def render (c : Config) : String := c.toDocument.render

end Config

end KernelLint
