import KernelLint.Proofs.Program.Links

/-!
# Grounded programs

A program is grounded when nothing in it refers to what is not there yet: the file of a class or
method, the class of a method or field and the fields of a class exist, and a class stands inside
earlier classes only. What is added to a grounded program under these conditions leaves it grounded.
An identity that is handed out later can then be taken for no other.
-/

namespace KernelLint

theorem Numbered.mono {α : Type} {fits fits' : Nat → α → Prop} {xs : Array α} (h : Numbered fits xs)
    (himp : ∀ i x, fits i x → fits' i x) : Numbered fits' xs :=
  fun i x hx => himp i x (h i x hx)

/-- The class can stand at position `i` of a program with that many files and fields. Its qualified
name is its own one, or it is dotted. -/
structure TypeDecl.IsGrounded (files fields i : Nat) (c : TypeDecl) : Prop where
  outer : ∀ o ∈ c.outer, o.index < i
  file : c.file.index < files
  listed : ∀ f ∈ c.fields, f.index < fields
  named : c.qualifiedName = c.name ∨ Text.isDotted c.qualifiedName = true

/-- The method can stand in a program with that many files and classes. -/
structure Method.IsGrounded (files classes : Nat) (m : Method) : Prop where
  owner : ∀ o ∈ m.owner, o.index < classes
  file : m.file.index < files

namespace Program

/-- Nothing in the program refers to what is not there yet. -/
structure Grounded (p : Program) : Prop where
  classes : Numbered (fun i c => c.IsGrounded p.files.size p.fields.size i) p.classes
  methods : Numbered (fun _ slot => ∀ m ∈ slot, m.IsGrounded p.files.size p.classes.size)
    p.methodSlots
  fields : Numbered (fun _ f => f.owner.index < p.classes.size) p.fields

theorem grounded_empty : Program.empty.Grounded := ⟨.empty, .empty, .empty⟩

variable {p : Program}

theorem Grounded.class? (h : p.Grounded) {id : ClassId} {c : TypeDecl} (hc : p.class? id = some c) :
    c.IsGrounded p.files.size p.fields.size id.index :=
  h.classes id.index c hc

theorem Grounded.method? (h : p.Grounded) {id : MethodId} {m : Method}
    (hm : p.method? id = some m) :
    m.IsGrounded p.files.size p.classes.size :=
  h.methods id.index (some m) (slot_of_method? hm) m rfl

/-! ## What can be added -/

theorem Grounded.freshNode (h : p.Grounded) :
    p.freshNode.2.Grounded := ⟨h.classes, h.methods, h.fields⟩

theorem Grounded.addFile (h : p.Grounded) (path : Path) (package : Option String)
    (imports : List Import) (origin : Origin) :
    (p.addFile path package imports origin).2.Grounded := by
  have hsize : (p.addFile path package imports origin).2.files.size = p.files.size + 1 := by
    simp [Program.addFile, pushFile, bump]
  refine ⟨h.classes.mono fun i c hc => ⟨hc.outer, ?_, hc.listed, hc.named⟩,
    h.methods.mono fun i slot hslot m hm => ?_, h.fields⟩
  · have := hc.file
    omega
  · have := (hslot m hm).file
    exact ⟨(hslot m hm).owner, by omega⟩

theorem size_files_linkClass (p : Program) (id : ClassId) (c : TypeDecl) :
    (p.linkClass id c).files.size = p.files.size := by
  unfold linkClass
  split <;> simp [modifyClass, modifyFile]

theorem size_files_addClass (p : Program) (c : TypeDecl) :
    (p.addClass c).2.files.size = p.files.size :=
  p.size_files_linkClass _ c

theorem size_classes_addClass (p : Program) (c : TypeDecl) :
    (p.addClass c).2.classes.size = p.classes.size + 1 := by
  simp [Program.addClass, pushClass, bump]

theorem Grounded.modifyClass (h : p.Grounded) (id : ClassId) {f : TypeDecl → TypeDecl}
    (hsame : ∀ c, (f c).outer = c.outer ∧ (f c).file = c.file ∧ (f c).fields = c.fields ∧
      (f c).name = c.name ∧
      (f c).qualifiedName = c.qualifiedName) : (p.modifyClass id f).Grounded := by
  have hsize : (p.modifyClass id f).classes.size = p.classes.size := by simp [Program.modifyClass]
  refine ⟨h.classes.modify (fun i c hc => ?_) id.index, ?_, ?_⟩
  · obtain ⟨houter, hfile, hfields, hname, hqualified⟩ := hsame c
    refine ⟨?_, ?_, ?_, ?_⟩
    · simpa only [houter] using hc.outer
    · simpa only [hfile] using hc.file
    · simpa only [hfields] using hc.listed
    · simpa only [hname, hqualified] using hc.named
  · rw [hsize]
    exact h.methods
  · rw [hsize]
    exact h.fields

theorem Grounded.linkClass (h : p.Grounded) (id : ClassId) (c : TypeDecl) :
    (p.linkClass id c).Grounded := by
  unfold Program.linkClass
  split
  · exact h.modifyClass _ fun _ => ⟨rfl, rfl, rfl, rfl, rfl⟩
  · have hsize : ∀ f, (p.modifyFile c.file f).files.size = p.files.size := by
      intro f
      simp [Program.modifyFile]
    exact ⟨by rw [hsize]; exact h.classes, by rw [hsize]; exact h.methods, h.fields⟩

theorem Grounded.addClass (h : p.Grounded) {c : TypeDecl}
    (hc : c.IsGrounded p.files.size p.fields.size p.classes.size) :
    (p.addClass c).2.Grounded := by
  have hlinked := h.linkClass ⟨p.classes.size⟩ c
  have hfiles := p.size_files_addClass c
  have hclasses := p.size_classes_addClass c
  refine ⟨?_, ?_, ?_⟩
  · refine hlinked.classes.push ?_
    rw [size_files_linkClass, size_classes_linkClass, fields_linkClass]
    exact ⟨hc.outer, hc.file, hc.listed, hc.named⟩
  · rw [hfiles, hclasses]
    refine hlinked.methods.mono fun i slot hslot m hm => ?_
    have hm' := hslot m hm
    rw [size_files_linkClass, size_classes_linkClass] at hm'
    exact ⟨fun o ho => Nat.lt_succ_of_lt (hm'.owner o ho), hm'.file⟩
  · rw [hclasses]
    refine hlinked.fields.mono fun i f hf => ?_
    rw [size_classes_linkClass] at hf
    exact Nat.lt_succ_of_lt hf

theorem size_classes_addField (p : Program) (f : Field) :
    (p.addField f).2.classes.size = p.classes.size := by
  simp [Program.addField, pushField, bump, Program.modifyClass]

theorem Grounded.addField (h : p.Grounded) {f : Field} (howner : f.owner.index < p.classes.size) :
    (p.addField f).2.Grounded := by
  have hclasses := p.size_classes_addField f
  have hfields : (p.addField f).2.fields.size = p.fields.size + 1 := by
    simp [Program.addField, pushField, bump, Program.modifyClass]
  refine ⟨?_, ?_, ?_⟩
  · rw [hfields]
    have hlisted : Numbered (fun i c => c.IsGrounded p.files.size (p.fields.size + 1) i)
        p.classes :=
      h.classes.mono fun i c hc =>
        ⟨hc.outer, hc.file, fun x hx => Nat.lt_succ_of_lt (hc.listed x hx), hc.named⟩
    have hlonger : ∀ i (c : TypeDecl), c.IsGrounded p.files.size (p.fields.size + 1) i →
        TypeDecl.IsGrounded p.files.size (p.fields.size + 1)
          i { c with fields := c.fields ++ [⟨p.fields.size⟩] } := by
      refine fun i c hc => ⟨hc.outer, hc.file, fun x hx => ?_, hc.named⟩
      rcases List.mem_append.mp hx with hx | hx
      · exact hc.listed x hx
      · rw [List.mem_singleton.mp hx]
        exact Nat.lt_succ_self _
    exact hlisted.modify hlonger f.owner.index
  · rw [hclasses]
    exact h.methods
  · rw [hclasses]
    exact h.fields.push howner

theorem Grounded.relinkMethod (h : p.Grounded) (m : Method)
    (change : List MethodId → List MethodId) :
    (p.relinkMethod m change).Grounded := by
  unfold Program.relinkMethod
  split
  · exact h.modifyClass _ fun _ => ⟨rfl, rfl, rfl, rfl, rfl⟩
  · exact h

theorem size_classes_relinkMethod (p : Program) (m : Method)
    (change : List MethodId → List MethodId) :
    (p.relinkMethod m change).classes.size = p.classes.size := by
  unfold Program.relinkMethod
  split <;> simp [Program.modifyClass]

theorem size_classes_addMethod (p : Program) (m : Method) :
    (p.addMethod m).2.classes.size = p.classes.size :=
  p.size_classes_relinkMethod m _

theorem size_files_addMethod (p : Program) (m : Method) :
    (p.addMethod m).2.files.size = p.files.size :=
  congrArg Array.size (p.files_relinkMethod m _)

theorem Grounded.addMethod (h : p.Grounded) {m : Method}
    (hm : m.IsGrounded p.files.size p.classes.size) :
    (p.addMethod m).2.Grounded := by
  have hlinked := h.relinkMethod m (· ++ [⟨p.methodSlots.size⟩])
  refine ⟨hlinked.classes, hlinked.methods.push ?_, hlinked.fields⟩
  intro x hx
  cases hx
  rw [files_relinkMethod, size_classes_relinkMethod]
  exact ⟨hm.owner, hm.file⟩

theorem Grounded.modifyMethod (h : p.Grounded) (id : MethodId) {f : Method → Method}
    (hsame : ∀ m, (f m).owner = m.owner ∧ (f m).file = m.file) :
    (p.modifyMethod id f).Grounded := by
  refine ⟨h.classes, h.methods.modify (fun i slot hslot m hm => ?_) id.index, h.fields⟩
  obtain ⟨x, hx, rfl⟩ := Option.map_eq_some_iff.mp hm
  obtain ⟨howner, hfile⟩ := hsame x
  refine ⟨?_, ?_⟩
  · simpa only [howner] using (hslot x hx).owner
  · simpa only [hfile] using (hslot x hx).file

end Program

end KernelLint
