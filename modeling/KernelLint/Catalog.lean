import KernelLint.CallGraph.Marker
import KernelLint.LocalMemory
import KernelLint.Registry

/-!
# Kernels and tasks

The kernels of a file, and those of them that can be run as tasks.
-/

namespace KernelLint

/-- A kernel that can be run. -/
structure Task where
  method : MethodId
  displayName : String
  span : Span
  /-- The parameters that size local memory. -/
  localMemory : List String
  deriving DecidableEq, Inhabited

/-- A method with the types of its parameters and result. -/
def Method.signature (m : Method) : String :=
  let params := m.params.map (·.type.type.renderShort)
  let result := match m.result with
    | some t => t.type.renderShort
    | none => "void"
  m.name ++ "(" ++ Text.joinWith ", " params ++ "): " ++ result

namespace Catalog

/-- Of several kernels with the same text, the first. -/
def distinctTexts : List (Method × Marker) → List (Method × Marker)
  | [] => []
  | k :: rest => k :: (distinctTexts rest).filter fun other => other.1.text ≠ k.1.text

/-- The kernels of a file in the order of their declaration, each text once. -/
def kernels (c : Config) (p : Program) (file : FileId) : List (Method × Marker) :=
  distinctTexts ((p.methodsOf file).filterMap fun m => (c.marker? m).map fun k => (m, k))

/-- A kernel can be run when it is well formed, returns nothing and is not flagged. -/
def isRunnable (r : Registry) (m : Method) : Bool :=
  !m.hasErrors && m.returnsVoid && !r.contains m.text

def tasks (c : Config) (r : Registry) (p : Program) (file : FileId) : List Task :=
  (((kernels c p file).map (·.1)).filter (isRunnable r)).map fun m =>
    ⟨m.id, m.signature, m.span, LocalMemory.params p c.contextType m⟩

end Catalog

end KernelLint
