import KernelLint.Proofs.Program.Edit
import KernelLint.Proofs.Resolve.Growth
import KernelLint.Resolve.Signature

/-!
# Enclosing classes first

A class names the class around it by its position, and nothing in the type of a program keeps two
classes from standing inside each other. They never do, because a class stands inside earlier
classes only. A class is added after the class around it, a stand-in stands in no class, and no
other change touches where a class stands.
-/

namespace KernelLint.Program

/-- Every class stands inside earlier classes only. -/
def OuterFirst (p : Program) : Prop := Numbered (fun i c => ∀ o ∈ c.outer, o.index < i) p.classes

variable {p q : Program}

theorem outerFirst_empty : Program.empty.OuterFirst := .empty

theorem OuterFirst.index_lt (h : p.OuterFirst) {id o : ClassId} {c : TypeDecl}
    (hc : p.class? id = some c) (ho : c.outer = some o) : o.index < id.index :=
  h id.index c hc o ho

theorem OuterFirst.of_classes (h : p.OuterFirst) (hsame : q.classes = p.classes) :
    q.OuterFirst := by
  rw [OuterFirst, hsame]
  exact h

theorem OuterFirst.modifyClass (h : p.OuterFirst) (id : ClassId) {f : TypeDecl → TypeDecl}
    (hsame : ∀ c, (f c).outer = c.outer) : (p.modifyClass id f).OuterFirst := by
  refine Numbered.modify h (fun i c hc => ?_) id.index
  simpa only [hsame] using hc

/-! ## What can be added -/

theorem OuterFirst.linkClass (h : p.OuterFirst) (id : ClassId) (c : TypeDecl) :
    (p.linkClass id c).OuterFirst := by
  unfold Program.linkClass
  split
  · exact h.modifyClass _ fun _ => rfl
  · exact h.of_classes rfl

theorem OuterFirst.addClass (h : p.OuterFirst) {c : TypeDecl}
    (hc : ∀ o ∈ c.outer, o.index < p.classes.size) :
    (p.addClass c).2.OuterFirst := by
  refine (h.linkClass ⟨p.classes.size⟩ c).push ?_
  rw [size_classes_linkClass]
  exact hc

theorem OuterFirst.addField (h : p.OuterFirst) (f : Field) : (p.addField f).2.OuterFirst :=
  h.modifyClass f.owner fun _ => rfl

theorem OuterFirst.relinkMethod (h : p.OuterFirst) (m : Method)
    (change : List MethodId → List MethodId) :
    (p.relinkMethod m change).OuterFirst := by
  unfold Program.relinkMethod
  split
  · exact h.modifyClass _ fun _ => rfl
  · exact h

theorem OuterFirst.addMethod (h : p.OuterFirst) (m : Method) : (p.addMethod m).2.OuterFirst :=
  h.relinkMethod m _

/-- **Edits keep enclosing classes first**, all but the addition of a class from nowhere. -/
theorem OuterFirst.edit (h : p.OuterFirst) {e : Edit} (he : ∀ c, e ≠ .addClass c) :
    (p.edit e).OuterFirst := by
  cases e with
  | addFile path package imports origin => exact h.of_classes rfl
  | addClass c => exact absurd rfl (he c)
  | addField f => exact h.addField f
  | addMethod m => exact h.addMethod m
  | replaceBody id body source =>
    rw [Program.edit, replaceBody]
    split
    · exact h
    · exact h.of_classes rfl
  | removeMethod id =>
    rw [Program.edit, removeMethod]
    cases p.method? id with
    | none => exact h
    | some m =>
      have hcleared : (p.clearSlot id).OuterFirst := h.of_classes rfl
      exact hcleared.relinkMethod m (·.filter (· ≠ id))
  | renameMethod id name =>
    rw [Program.edit, renameMethod]
    split
    · exact h
    · exact h.of_classes rfl
  | touch => exact h

/-! ## Resolution -/

theorem OuterFirst.qualifySignatures (h : p.OuterFirst) : p.qualifySignatures.OuterFirst :=
  Numbered.map h fun _ _ hc => hc

theorem OuterFirst.grows (h : p.OuterFirst) (hgrows : p.Grows q) : q.OuterFirst := by
  intro i c hc o ho
  cases hold : p.class? ⟨i⟩ with
  | none =>
    have houter := (hgrows.newType hc hold).1.outer_eq
    rw [houter] at ho
    cases ho
  | some d =>
    obtain ⟨d', hd', hgrows⟩ := hgrows.type hold
    obtain rfl := Option.some.inj (hd'.symm.trans hc)
    exact h i d hold o (hgrows.outer_eq ▸ ho)

end KernelLint.Program
