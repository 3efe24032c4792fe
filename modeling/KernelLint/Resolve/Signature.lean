import KernelLint.Resolve.Qualify

/-!
# Signatures

Qualification of every name outside bodies: extended classes, the types of fields, and the types and
annotations of methods.
-/

namespace KernelLint.Program

/-- The class with the name of its extended class qualified from outside the class. -/
def qualifyClass (p : Program) (c : TypeDecl) : TypeDecl :=
  { c with superName := c.superName.map (p.qualify · ⟨c.file, c.outer⟩) }

/-- The field with its type qualified, if a class lists it. -/
def qualifyField (p : Program) (f : Field) : Field :=
  match p.class? f.owner with
  | some c =>
    if c.fields.contains f.id then { f with type := p.qualifyUse f.type ⟨c.file, some f.owner⟩ }
    else f
  | none => f

theorem qualifyField_id (p : Program) (f : Field) : (p.qualifyField f).id = f.id := by
  unfold qualifyField
  split
  · split <;> rfl
  · rfl

def qualifyMarking (p : Program) (site : Site) (a : AnnotationUse) : AnnotationUse :=
  { a with name := p.qualify a.name site }

/-- The method with its types and annotations qualified; its body is kept. -/
def qualifyMethod (p : Program) (m : Method) : Method :=
  let site : Site := ⟨m.file, m.owner⟩
  { m with
    params := m.params.map fun q => { q with type := p.qualifyUse q.type site }
    result := m.result.map (p.qualifyUse · site)
    throws := m.throws.map (p.qualifyUse · site)
    annotations := m.annotations.map (p.qualifyMarking site)
    innerAnnotations := m.innerAnnotations.map (p.qualifyMarking site) }

/-- The program with all names outside bodies qualified. -/
def qualifySignatures (p : Program) : Program :=
  { p with
    classes := p.classes.map p.qualifyClass
    fields := p.fields.map p.qualifyField
    methodSlots := p.methodSlots.map (Option.map p.qualifyMethod)
    classes_numbered := p.classes_numbered.map fun _ _ h => h
    fields_numbered := p.fields_numbered.map fun _ f h => by rwa [p.qualifyField_id f]
    slots_numbered := p.slots_numbered.map fun _ _ h => by simpa [qualifyMethod] using h }

end KernelLint.Program
