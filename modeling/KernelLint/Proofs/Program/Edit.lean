import KernelLint.Program.Edit

/-!
# Edits and revisions

The eight edits of a program as data, so that a history of a program is a list. An edit either is
refused and changes nothing at all, or it counts: the revision grows by exactly one.
-/

namespace KernelLint

/-- An edit of a program. -/
inductive Edit where
  | addFile (path : Path) (package : Option String) (imports : List Import) (origin : Origin)
  | addClass (c : TypeDecl)
  | addField (f : Field)
  | addMethod (m : Method)
  | replaceBody (id : MethodId) (body : Option Stmt) (source : String)
  | removeMethod (id : MethodId)
  | renameMethod (id : MethodId) (name : String)
  | touch

namespace Program

/-- The program after an edit; an edit that is refused leaves it as it is. -/
def edit (p : Program) : Edit → Program
  | .addFile path package imports origin => (p.addFile path package imports origin).2
  | .addClass c => (p.addClass c).2
  | .addField f => (p.addField f).2
  | .addMethod m => (p.addMethod m).2
  | .replaceBody id body source => (p.replaceBody id body source).toOption.getD p
  | .removeMethod id => ((p.removeMethod id).map (·.2)).getD p
  | .renameMethod id name => (p.renameMethod id name).toOption.getD p
  | .touch => p.touch

/-! ## What a single change does to the revision -/

@[simp] theorem revision_bump (p : Program) : p.bump.revision = p.revision + 1 := rfl

@[simp] theorem revision_linkClass (p : Program) (id : ClassId) (c : TypeDecl) :
    (p.linkClass id c).revision = p.revision := by
  unfold linkClass
  split <;> rfl

@[simp] theorem revision_relinkMethod (p : Program) (m : Method)
    (change : List MethodId → List MethodId) : (p.relinkMethod m change).revision = p.revision := by
  unfold relinkMethod
  split <;> rfl

@[simp] theorem revision_pushClass (p : Program) (c : TypeDecl) :
    (p.pushClass c).revision = p.revision := rfl

@[simp] theorem revision_pushMethod (p : Program) (m : Method) :
    (p.pushMethod m).revision = p.revision := rfl

@[simp] theorem revision_clearSlot (p : Program) (id : MethodId) :
    (p.clearSlot id).revision = p.revision := rfl

/-! ## What an edit does to the revision -/

theorem revision_removeMethod {p q : Program} {id : MethodId} {m : Method}
    (h : p.removeMethod id = some (m, q)) : q.revision = p.revision + 1 := by
  obtain ⟨m', -, hm⟩ := Option.map_eq_some_iff.mp h
  obtain ⟨-, rfl⟩ := Prod.mk.inj hm
  simp only [revision_bump, revision_relinkMethod, revision_clearSlot]

theorem revision_replaceBody {p q : Program} {id : MethodId} {body : Option Stmt} {source : String}
    (h : p.replaceBody id body source = .ok q) : q.revision = p.revision + 1 := by
  unfold replaceBody at h
  split at h
  · cases h
  · cases h
    rfl

theorem revision_renameMethod {p q : Program} {id : MethodId} {name : String}
    (h : p.renameMethod id name = .ok q) : q.revision = p.revision + 1 := by
  unfold renameMethod at h
  split at h
  · cases h
  · cases h
    rfl

/-- **An edit is refused or counts.** -/
theorem edit_eq_or_revision_edit (p : Program) (e : Edit) :
    p.edit e = p ∨ (p.edit e).revision = p.revision + 1 := by
  cases e with
  | addFile path package imports origin => exact .inr rfl
  | addClass c => exact .inr (by simp [edit, addClass])
  | addField f => exact .inr rfl
  | addMethod m => exact .inr (by simp [edit, addMethod])
  | replaceBody id body source =>
    cases h : p.replaceBody id body source with
    | error _ => exact .inl (by simp [edit, h, Except.toOption])
    | ok q => exact .inr (by simpa [edit, h, Except.toOption] using revision_replaceBody h)
  | removeMethod id =>
    cases h : p.removeMethod id with
    | none => exact .inl (by simp [edit, h])
    | some removed => exact .inr (by simpa [edit, h] using revision_removeMethod h)
  | renameMethod id name =>
    cases h : p.renameMethod id name with
    | error _ => exact .inl (by simp [edit, h, Except.toOption])
    | ok q => exact .inr (by simpa [edit, h, Except.toOption] using revision_renameMethod h)
  | touch => exact .inr rfl

end Program

end KernelLint
