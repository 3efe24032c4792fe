import KernelLint.Config.Basic
import KernelLint.Program.Query

/-!
# Parameters that size local memory

Kernels allocate local memory through their context. The size is traced back to parameters: through
parentheses, operators before an operand, casts, operands of binary operators and branches of
conditionals; a local variable is followed once, to its initializer and to everything assigned to
it.
-/

namespace KernelLint.LocalMemory

/-- The element kinds of local arrays. -/
def elementKinds : List String :=
  ["Float", "Int", "Double", "Long", "Byte", "HalfFloat", "Short"]

/-- The names of the methods that allocate a local array. -/
def allocators : List String :=
  elementKinds.map fun kind => "allocate" ++ kind ++ "LocalArray"

/-- Is the expression an allocation made through the context? -/
def isAllocation (p : Program) (contextType : String) (m : Method) : Expr → Bool
  | .call _ id qualifier _ _ =>
    allocators.contains id
      && (qualifier.bind (p.typeOf? m)).any fun t =>
          t.dims = 0 && Text.endsWith t.name contextType
  | _ => false

def firstArg? : Expr → Option Expr
  | .call _ _ _ args _ => args.head?
  | _ => none

/-- The parameters of `m` an expression takes its value from; `onLocal` says what a local variable
adds. -/
def trace (m : Method) (onLocal : NodeId → List String) : Expr → List String
  | .name _ _ _ target =>
    match target with
    | some (.parameter owner index) =>
      if owner = m.id then (m.params[index]?.map (·.name)).toList else []
    | some (.localVar node) => onLocal node
    | _ => []
  | .paren _ e => trace m onLocal e
  | .unary _ _ e isPre => if isPre then trace m onLocal e else []
  | .cast _ _ e => trace m onLocal e
  | .binary _ _ l r => trace m onLocal l ++ trace m onLocal r
  | .conditional _ _ t f => trace m onLocal t ++ trace m onLocal f
  | _ => []

/-- The parameters an expression names directly. -/
def direct (m : Method) (e : Expr) : List String :=
  trace m (fun _ => []) e

/-- Is the expression an assignment to a local variable? Then the value assigned. -/
def assigned? (node : NodeId) : Expr → Option Expr
  | .assign _ _ target value =>
    if target.strip.nameTarget? = some (.localVar node) then some value else none
  | _ => none

/-- What flows into a local variable: its initializer and all values assigned to it. -/
def sources (m : Method) (node : NodeId) : List Expr :=
  ((Program.local? m node).bind Local.init).toList ++ m.exprs.filterMap (assigned? node)

/-- The parameters an expression takes its value from, through at most one local variable. -/
def flow (m : Method) (e : Expr) : List String :=
  trace m (fun node => (sources m node).flatMap (direct m)) e

/-- Sorted, without repetitions. -/
def sortedNames (names : List String) : List String :=
  names.eraseDups.mergeSort fun a b => a ≤ b

/-- The parameters that size the local arrays of a method. -/
def params (p : Program) (contextType : String) (m : Method) : List String :=
  let sizes := (m.calls.filter (isAllocation p contextType m)).filterMap firstArg?
  if m.params.isEmpty then [] else sortedNames (sizes.flatMap (flow m))

end KernelLint.LocalMemory
