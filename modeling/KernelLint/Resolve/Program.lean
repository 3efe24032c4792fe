import KernelLint.Resolve.Body
import KernelLint.Resolve.Signature

/-!
# Whole programs

Resolution of a program: first all signatures, then the bodies in the order of their methods. Bodies
in the file of the stand-ins are left alone. Only new stand-ins count as edits.
-/

namespace KernelLint

namespace Resolve

/-- The names that the parameters of a method bring into scope. -/
def parameterNames (m : Method) : Names :=
  (m.params.mapIdx fun i q => (q.name, Declaration.parameter m.id i)).reverse

def methodBody (id : MethodId) : Resolve Unit := do
  match (← get).program.method? id with
  | none => pure ()
  | some m =>
    match m.body with
    | none => pure ()
    | some body =>
      let (body, _) ← stmt ⟨m.file, m.owner⟩ (parameterNames m) body
      modify fun s =>
        { s with program := s.program.modifyMethod id fun m => { m with body := some body } }

end Resolve

namespace Program

def resolvable (p : Program) : List MethodId :=
  (p.methods.filter fun m => some m.file ≠ p.stubFile? && m.body.isSome).map (·.id)

def resolve (p : Program) : Program :=
  let p := p.qualifySignatures
  ((p.resolvable.forM Resolve.methodBody).run { program := p }).2.program

end Program

end KernelLint
