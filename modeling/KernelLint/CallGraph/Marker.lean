import KernelLint.Config.Basic
import KernelLint.Program.Entity

/-!
# What makes a method a kernel

An annotation on the method or inside it, or else a parameter of the context type.
-/

namespace KernelLint

/-- Why a method is a kernel. -/
inductive Marker where
  | annotated (name : String)
  /-- The position of the context parameter. -/
  | context (index : Nat)
  deriving DecidableEq

def Marker.isAnnotated : Marker → Bool
  | .annotated _ => true
  | .context _ => false

/-- The mark of a method; annotations count before parameters. -/
def Config.marker? (c : Config) (m : Method) : Option Marker :=
  match (m.annotations ++ m.innerAnnotations).find? (c.marksKernel ·.name) with
  | some a => some (.annotated a.name)
  | none =>
    (m.params.findIdx? fun q => Text.endsWith q.type.type.name c.contextType).map Marker.context

end KernelLint
