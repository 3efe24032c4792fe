import KernelLint.Proofs.Program.Edit
import KernelLint.Proofs.Program.Live

/-!
# What is found after an edit

An entity that is added is found under the next identity, everything else is found where it was: a
class or file whose list of members an edit changes stays the same in all other respects, and of
methods only the edited one changes. So what becomes of a method that exists is decided by the edits
that name it (`method?_editAll`).
-/

namespace KernelLint.Program

variable (p : Program)

/-! ## Single changes -/

theorem file?_pushFile (f : SourceFile) (id : FileId) : (p.pushFile f).file? id =
    if id = ⟨p.files.size⟩ then some { f with id := ⟨p.files.size⟩ } else p.file? id := by
  obtain ⟨i⟩ := id
  simp only [file?, pushFile, Array.getElem?_push, FileId.mk.injEq]

theorem class?_pushClass (c : TypeDecl) (id : ClassId) : (p.pushClass c).class? id =
    if id = ⟨p.classes.size⟩ then some { c with id := ⟨p.classes.size⟩ } else p.class? id := by
  obtain ⟨i⟩ := id
  simp only [class?, pushClass, Array.getElem?_push, ClassId.mk.injEq]

theorem method?_pushMethod (m : Method) (id : MethodId) : (p.pushMethod m).method? id =
    if id = ⟨p.methodSlots.size⟩ then some { m with id := ⟨p.methodSlots.size⟩ }
    else p.method? id := by
  obtain ⟨i⟩ := id
  simp only [method?, pushMethod, Array.getElem?_push, MethodId.mk.injEq]
  split <;> rfl

theorem field?_pushField (f : Field) (id : FieldId) : (p.pushField f).field? id =
    if id = ⟨p.fields.size⟩ then some { f with id := ⟨p.fields.size⟩ } else p.field? id := by
  obtain ⟨i⟩ := id
  simp only [field?, pushField, Array.getElem?_push, FieldId.mk.injEq]

theorem file?_modifyFile (id other : FileId) (f : SourceFile → SourceFile) :
    (p.modifyFile id f).file? other =
      (p.file? other).map fun x => if id = other then { f x with id := x.id } else x := by
  obtain ⟨i⟩ := id
  obtain ⟨j⟩ := other
  simp only [file?, modifyFile, Array.getElem?_modify, FileId.mk.injEq]
  split <;> simp

theorem class?_modifyClass (id other : ClassId) (f : TypeDecl → TypeDecl) :
    (p.modifyClass id f).class? other =
      (p.class? other).map fun x => if id = other then { f x with id := x.id } else x := by
  obtain ⟨i⟩ := id
  obtain ⟨j⟩ := other
  simp only [class?, modifyClass, Array.getElem?_modify, ClassId.mk.injEq]
  split <;> simp

theorem method?_modifyMethod (id other : MethodId) (f : Method → Method) :
    (p.modifyMethod id f).method? other =
      (p.method? other).map fun x => if id = other then { f x with id := x.id } else x := by
  obtain ⟨i⟩ := id
  obtain ⟨j⟩ := other
  simp only [method?, modifyMethod, Array.getElem?_modify, MethodId.mk.injEq]
  split
  · cases p.methodSlots[j]? <;> rfl
  · simp

theorem method?_clearSlot (id other : MethodId) :
    (p.clearSlot id).method? other = if other = id then none else p.method? other := by
  obtain ⟨i⟩ := id
  obtain ⟨j⟩ := other
  simp only [method?, clearSlot, Array.getElem?_modify, MethodId.mk.injEq, eq_comm]
  split
  · cases p.methodSlots[j]? <;> simp
  · rfl

/-! ## Links -/

@[simp] theorem size_classes_linkClass (id : ClassId) (c : TypeDecl) :
    (p.linkClass id c).classes.size = p.classes.size := by
  unfold linkClass
  split <;> simp [modifyClass, modifyFile]

@[simp] theorem methodSlots_linkClass (id : ClassId) (c : TypeDecl) :
    (p.linkClass id c).methodSlots = p.methodSlots := by
  unfold linkClass
  split <;> rfl

@[simp] theorem fields_linkClass (id : ClassId) (c : TypeDecl) :
    (p.linkClass id c).fields = p.fields := by
  unfold linkClass
  split <;> rfl

theorem class?_linkClass (new : ClassId) (c : TypeDecl) (id : ClassId) :
    (p.linkClass new c).class? id = (p.class? id).map fun x =>
      if c.outer = some id then { x with nested := x.nested ++ [new] } else x := by
  unfold linkClass
  split
  · rename_i outer houter
    rw [class?_modifyClass]
    simp [houter]
  · rename_i houter
    simp [houter, class?, modifyFile]

theorem file?_linkClass (new : ClassId) (c : TypeDecl) (id : FileId) :
    (p.linkClass new c).file? id = (p.file? id).map fun x =>
      if c.outer = none ∧ c.file = id then { x with classes := x.classes ++ [new] } else x := by
  unfold linkClass
  split
  · rename_i outer houter
    simp [houter, file?, modifyClass]
  · rename_i houter
    rw [file?_modifyFile]
    simp [houter]

@[simp] theorem methodSlots_relinkMethod (m : Method) (change : List MethodId → List MethodId) :
    (p.relinkMethod m change).methodSlots = p.methodSlots := by
  unfold relinkMethod
  split <;> rfl

@[simp] theorem files_relinkMethod (m : Method) (change : List MethodId → List MethodId) :
    (p.relinkMethod m change).files = p.files := by
  unfold relinkMethod
  split <;> rfl

@[simp] theorem fields_relinkMethod (m : Method) (change : List MethodId → List MethodId) :
    (p.relinkMethod m change).fields = p.fields := by
  unfold relinkMethod
  split <;> rfl

theorem class?_relinkMethod (m : Method) (change : List MethodId → List MethodId) (id : ClassId) :
    (p.relinkMethod m change).class? id = (p.class? id).map fun x =>
      if m.owner = some id then { x with methods := change x.methods } else x := by
  unfold relinkMethod
  split
  · rename_i owner howner
    rw [class?_modifyClass]
    simp [howner]
  · rename_i howner
    simp [howner]

theorem method?_addMethod (m : Method) (id : MethodId) : (p.addMethod m).2.method? id =
    if id = ⟨p.methodSlots.size⟩ then some { m with id := ⟨p.methodSlots.size⟩ }
    else p.method? id := by
  have hpush : (p.addMethod m).2.method? id =
      ((p.relinkMethod m (· ++ [⟨p.methodSlots.size⟩])).pushMethod m).method? id := rfl
  rw [hpush, method?_pushMethod, methodSlots_relinkMethod, method?, methodSlots_relinkMethod]
  rfl

theorem class?_addMethod (m : Method) (id : ClassId) :
    (p.addMethod m).2.class? id = (p.class? id).map fun x =>
    if m.owner = some id then { x with methods := x.methods ++ [⟨p.methodSlots.size⟩] } else x :=
  p.class?_relinkMethod m _ id

theorem class?_addField (f : Field) (id : ClassId) :
    (p.addField f).2.class? id = (p.class? id).map fun x =>
    if f.owner = id then { x with fields := x.fields ++ [⟨p.fields.size⟩] } else x :=
  p.class?_modifyClass f.owner id _

theorem field?_addField (f : Field) (id : FieldId) : (p.addField f).2.field? id =
    if id = ⟨p.fields.size⟩ then some { f with id := ⟨p.fields.size⟩ } else p.field? id :=
  (p.modifyClass f.owner _).field?_pushField f id

/-! ## Identities not handed out yet -/

variable {p}

theorem index_lt_of_class? {id : ClassId} {c : TypeDecl} (h : p.class? id = some c) :
    id.index < p.classes.size :=
  (Array.getElem?_eq_some_iff.mp h).1

theorem index_lt_of_field? {id : FieldId} {f : Field} (h : p.field? id = some f) :
    id.index < p.fields.size :=
  (Array.getElem?_eq_some_iff.mp h).1

theorem index_lt_of_method? {id : MethodId} {m : Method} (h : p.method? id = some m) :
    id.index < p.methodSlots.size :=
  (Array.getElem?_eq_some_iff.mp (slot_of_method? h)).1

end Program

/-! ## Edits of methods -/

/-- The method that an edit is about. -/
def Edit.target? : Edit → Option MethodId
  | .replaceBody id _ _ => some id
  | .removeMethod id => some id
  | .renameMethod id _ => some id
  | _ => none

namespace Program

variable {p : Program} {id : MethodId} {m : Method}

theorem refused_of_missing (h : p.method? id = none) :
    (∀ body source, p.replaceBody id body source = .error (.unknownMethod id)) ∧
      (∀ name, p.renameMethod id name = .error (.unknownMethod id)) ∧ p.removeMethod id = none := by
  simp [replaceBody, renameMethod, removeMethod, h]

/-- An edit is refused when the method it is about is not there. -/
def Refuses (p : Program) (e : Edit) :
    Prop := ∃ target, e.target? = some target ∧ p.method? target = none

theorem Refuses.edit_eq {e : Edit} (h : p.Refuses e) : p.edit e = p := by
  obtain ⟨id, htarget, hnone⟩ := h
  obtain ⟨hreplace, hrename, hremove⟩ := refused_of_missing hnone
  cases e with
  | replaceBody target body source =>
    cases htarget
    simp [edit, hreplace, Except.toOption]
  | renameMethod target name =>
    cases htarget
    simp [edit, hrename, Except.toOption]
  | removeMethod target =>
    cases htarget
    simp [edit, hremove]
  | _ => cases htarget

theorem refuses_or_live (p : Program) (e : Edit) :
    p.Refuses e ∨ ∀ target, e.target? = some target → ∃ m, p.method? target = some m := by
  by_cases hrefuses : p.Refuses e
  · exact .inl hrefuses
  · exact .inr fun target htarget =>
      Option.ne_none_iff_exists'.mp fun hnone => hrefuses ⟨target, htarget, hnone⟩

theorem edit_replaceBody (h : p.method? id = some m) (body : Option Stmt) (source : String) :
    p.edit (.replaceBody id body source) = (p.modifyMethod id fun x =>
      { x with text := withBodyText x.text (body.map fun _ => source), body }).bump := by
  simp [edit, replaceBody, h, Except.toOption]

theorem edit_renameMethod (h : p.method? id = some m) (name : String) :
    p.edit (.renameMethod id name) = (p.modifyMethod id fun x =>
      { x with text := withNameText x.text x.name name, name }).bump := by
  simp [edit, renameMethod, h, Except.toOption]

theorem edit_removeMethod (h : p.method? id = some m) :
    p.edit (.removeMethod id) = ((p.clearSlot id).relinkMethod m (·.filter (· ≠ id))).bump := by
  simp [edit, removeMethod, h]

theorem revision_edit {e : Edit} (h : ¬ p.Refuses e) : (p.edit e).revision = p.revision + 1 := by
  have hlive := (p.refuses_or_live e).resolve_left h
  cases e with
  | addFile path package imports origin => rfl
  | addField f => rfl
  | touch => rfl
  | addClass c => simp [edit, addClass]
  | addMethod m => simp [edit, addMethod]
  | replaceBody id body source =>
    obtain ⟨m, hm⟩ := hlive id rfl
    rw [edit_replaceBody hm]
    rfl
  | renameMethod id name =>
    obtain ⟨m, hm⟩ := hlive id rfl
    rw [edit_renameMethod hm]
    rfl
  | removeMethod id =>
    obtain ⟨m, hm⟩ := hlive id rfl
    simp [edit_removeMethod hm]

theorem size_methodSlots_edit (p : Program) (e : Edit) :
    p.methodSlots.size ≤ (p.edit e).methodSlots.size := by
  rcases p.refuses_or_live e with hrefuses | hlive
  · exact Nat.le_of_eq (by rw [hrefuses.edit_eq])
  cases e with
  | addFile path package imports origin => exact Nat.le_refl _
  | addField f => exact Nat.le_refl _
  | touch => exact Nat.le_refl _
  | addClass c => simp [edit, addClass, pushClass, bump]
  | addMethod m => simp [edit, addMethod, pushMethod, bump]
  | replaceBody id body source =>
    obtain ⟨m, hm⟩ := hlive id rfl
    simp [edit_replaceBody hm, modifyMethod, bump]
  | renameMethod id name =>
    obtain ⟨m, hm⟩ := hlive id rfl
    simp [edit_renameMethod hm, modifyMethod, bump]
  | removeMethod id =>
    obtain ⟨m, hm⟩ := hlive id rfl
    simp [edit_removeMethod hm, clearSlot, bump]

end Program

/-! ## What becomes of a method -/

/-- What an edit makes of a method that exists. -/
def Method.edited (m : Method) : Edit → Option Method
  | .replaceBody id body source =>
    some (if id = m.id then { m with text := withBodyText m.text (body.map fun _ => source), body }
      else m)
  | .renameMethod id name =>
    some (if id = m.id then { m with text := withNameText m.text m.name name, name } else m)
  | .removeMethod id => if id = m.id then none else some m
  | _ => some m

theorem Method.edited_of_ne {m : Method} {e : Edit} (h : e.target? ≠ some m.id) :
    m.edited e = some m := by
  cases e with
  | replaceBody id body source => simp_all [edited, Edit.target?]
  | renameMethod id name => simp_all [edited, Edit.target?]
  | removeMethod id => simp_all [edited, Edit.target?]
  | _ => rfl

/-- The second method is the first one, perhaps with another name, text or body. -/
def Method.Becomes (m m' : Method) : Prop :=
  m' = { m with name := m'.name, text := m'.text, body := m'.body }

theorem Method.becomes_of_edited {m m' : Method} {e : Edit} (h : m.edited e = some m') :
    m.Becomes m' := by
  cases e with
  | replaceBody id body source =>
    obtain rfl := Option.some.inj h
    split <;> rfl
  | renameMethod id name =>
    obtain rfl := Option.some.inj h
    split <;> rfl
  | removeMethod id =>
    simp only [edited] at h
    split at h
    · cases h
    · cases h
      rfl
  | _ =>
    cases h
    rfl

namespace Program

variable {p : Program} {id : MethodId} {m : Method}

theorem method?_modifyMethod_bind {target : MethodId} {f : Method → Method}
    {change : Method → Option Method}
    (hchange : ∀ m, change m = some (if target = m.id then { f m with id := m.id } else m)) :
    (p.modifyMethod target f).method? id = (p.method? id).bind change := by
  rw [method?_modifyMethod]
  cases hm : p.method? id with
  | none => rfl
  | some m =>
    have hid := id_of_method? hm
    simp [hchange, hid]

/-- **What an edit makes of the method under an identity that was handed out.** -/
theorem method?_edit (p : Program) (e : Edit) (hid : id.index < p.methodSlots.size) :
    (p.edit e).method? id = (p.method? id).bind (·.edited e) := by
  rcases p.refuses_or_live e with hrefuses | hlive
  · rw [hrefuses.edit_eq]
    obtain ⟨target, htarget, hnone⟩ := hrefuses
    cases hm : p.method? id with
    | none => rfl
    | some m =>
      refine (Method.edited_of_ne fun hsame => ?_).symm
      rw [htarget, Option.some.injEq] at hsame
      rw [hsame, method?_self hm] at hnone
      cases hnone
  cases e with
  | addFile path package imports origin => exact (Option.bind_fun_some _).symm
  | addField f => exact (Option.bind_fun_some _).symm
  | touch => exact (Option.bind_fun_some _).symm
  | addClass c =>
    have hslots : (p.edit (.addClass c)).method? id = (p.linkClass ⟨p.classes.size⟩ c).method? id :=
      rfl
    rw [hslots, method?, methodSlots_linkClass]
    exact (Option.bind_fun_some _).symm
  | addMethod m =>
    have hne : id ≠ ⟨p.methodSlots.size⟩ := by
      rintro rfl
      exact Nat.lt_irrefl _ hid
    have hsame : (p.edit (.addMethod m)).method? id = p.method? id :=
      (p.method?_addMethod m id).trans (if_neg hne)
    rw [hsame]
    exact (Option.bind_fun_some _).symm
  | replaceBody target body source =>
    obtain ⟨x, hx⟩ := hlive target rfl
    rw [edit_replaceBody hx]
    exact method?_modifyMethod_bind fun m => rfl
  | renameMethod target name =>
    obtain ⟨x, hx⟩ := hlive target rfl
    rw [edit_renameMethod hx]
    exact method?_modifyMethod_bind fun m => rfl
  | removeMethod target =>
    obtain ⟨x, hx⟩ := hlive target rfl
    have hslots : (p.edit (.removeMethod target)).method? id = (p.clearSlot target).method? id := by
      rw [edit_removeMethod hx]
      simp [method?, bump]
    rw [hslots, method?_clearSlot]
    cases hm : p.method? id with
    | none => simp
    | some m =>
      have hself := id_of_method? hm
      simp [Method.edited, hself, eq_comm]

/-- The program after edits one after another. -/
def editAll (p : Program) (edits : List Edit) : Program := edits.foldl edit p

/-- Was the identity given to a method at some time? -/
def HasGiven (p : Program) (id : MethodId) : Prop := id.index < p.methodSlots.size

theorem foldl_edited_none (edits : List Edit) :
    edits.foldl (fun slot e => slot.bind (Method.edited · e)) none = none := by
  induction edits with
  | nil => rfl
  | cons e rest ih => exact ih

/-- Over whole histories, the method under an identity that was given out is what the edits make of
it. -/
theorem method?_editAll {p : Program} (edits : List Edit) (hid : p.HasGiven id) :
    (p.editAll edits).method? id =
      edits.foldl (fun slot e => slot.bind (Method.edited · e)) (p.method? id) := by
  induction edits generalizing p with
  | nil => rfl
  | cons e rest ih =>
    have hnext := @ih (p.edit e) (Nat.lt_of_lt_of_le hid (p.size_methodSlots_edit e))
    rw [method?_edit p e hid] at hnext
    exact hnext

theorem becomes_of_foldl_edited {edits : List Edit} {m m' : Method}
    (h : edits.foldl (fun slot e => slot.bind (Method.edited · e)) (some m) = some m') :
    m.Becomes m' := by
  induction edits generalizing m with
  | nil =>
    obtain rfl := Option.some.inj h
    rfl
  | cons e rest ih =>
    rw [List.foldl_cons, Option.bind_some] at h
    cases hm : m.edited e with
    | none =>
      rw [hm, foldl_edited_none] at h
      cases h
    | some x =>
      rw [hm] at h
      have hfirst : x = _ := Method.becomes_of_edited hm
      have hrest : m' = _ := ih h
      rw [Method.Becomes, hrest, hfirst]

/-- **An identity keeps its method.** Whatever is found under it later is the same method,
edited. -/
theorem becomes_after_edits {p : Program} {edits : List Edit} {m' : Method} (hid : p.HasGiven id)
    (hm' : (p.editAll edits).method? id = some m') : ∃ m, p.method? id = some m ∧ m.Becomes m' := by
  rw [method?_editAll edits hid] at hm'
  cases hm : p.method? id with
  | none =>
    rw [hm, foldl_edited_none] at hm'
    cases hm'
  | some m =>
    rw [hm] at hm'
    exact ⟨m, rfl, becomes_of_foldl_edited hm'⟩

end Program

end KernelLint
