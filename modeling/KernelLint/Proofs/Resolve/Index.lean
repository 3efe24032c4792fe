import KernelLint.Proofs.Resolve.Lasting
import KernelLint.Proofs.Resolve.Signature
import KernelLint.Resolve.Index
import Mathlib.Data.List.Find

/-!
# The tables are in step with the program

The tables of a resolution hold what a search of the program finds (`NameIndex.InStep`). This is so
at the start, once classes and members are entered, and each step of a resolution keeps it if what
the step adds is entered under its name; so it holds for as long as the resolution runs. The
operations on the tables then answer what those on the program answer, and change the program in the
same way (`IndexedProgram.Mirrors`).
-/

namespace KernelLint

/-! ## Tables -/

namespace MemberTable

variable {α : Type}

theorem find?_update (t : MemberTable α) (owner : ClassId) (name : String) (change : Option α → α)
    (owner' : ClassId) (name' : String) : (t.update owner name change).find? owner' name' =
      if owner' = owner ∧ name' = name then some (change (t.find? owner name))
      else t.find? owner' name' := by
  by_cases howner : owner' = owner
  · subst howner
    have hrow : ∀ n, ((t.rows.lookup owner').getD ∅).lookup n = t.find? owner' n := by
      intro n
      rw [find?]
      cases t.rows.lookup owner' <;> rfl
    rw [find?, update, AList.lookup_insert, Option.bind_some, hrow]
    by_cases hname : name' = name
    · subst hname
      rw [AList.lookup_insert, if_pos ⟨rfl, rfl⟩]
    · rw [AList.lookup_insert_ne hname, hrow, if_neg fun h => hname h.2]
  · rw [if_neg fun h => howner h.1, find?, update, AList.lookup_insert_ne howner, find?]

end MemberTable

namespace NameIndex

variable {ix : NameIndex}

theorem lookup_enterClass (ix : NameIndex) (qualifiedName : String) (id : ClassId) (name : String) :
    (ix.enterClass qualifiedName id).classes.lookup name =
      (ix.classes.lookup name <|> if qualifiedName = name then some id else none) := by
  unfold enterClass
  by_cases hname : qualifiedName = name
  · subst hname
    cases hfound : ix.classes.lookup qualifiedName <;> simp [hfound, AList.lookup_insert]
  · rw [if_neg hname]
    split
    · simp
    · simp [AList.lookup_insert_ne (Ne.symm hname)]

theorem enterClass_members (ix : NameIndex) (qualifiedName : String) (id : ClassId) :
    (ix.enterClass qualifiedName id).methods = ix.methods ∧
    (ix.enterClass qualifiedName id).fields = ix.fields ∧
      (ix.enterClass qualifiedName id).stubFile = ix.stubFile := by
  unfold enterClass
  split <;> exact ⟨rfl, rfl, rfl⟩

theorem candidates_enterMethod (ix : NameIndex) (owner : ClassId) (name : String) (id : MethodId)
    (owner' : ClassId) (name' : String) : (ix.enterMethod owner name id).candidates owner' name' =
      ix.candidates owner' name' ++ if owner' = owner ∧ name' = name then [id] else [] := by
  rw [candidates, enterMethod, MemberTable.find?_update]
  split
  · rename_i h
    rw [h.1, h.2]
    rfl
  · rw [List.append_nil, candidates]

/-! ## Filling the tables -/

theorem foldl_enterClass (cs : List TypeDecl) (ix : NameIndex) :
    let filled := cs.foldl (fun ix c => ix.enterClass c.qualifiedName c.id) ix
    (∀ name, filled.classes.lookup name =
      (ix.classes.lookup name <|> (cs.find? (·.qualifiedName = name)).map (·.id))) ∧
      filled.methods = ix.methods ∧ filled.fields = ix.fields ∧ filled.stubFile = ix.stubFile := by
  induction cs generalizing ix with
  | nil => simp
  | cons c rest ih =>
    obtain ⟨hclasses, hmethods, hfields, hfile⟩ := ih (ix.enterClass c.qualifiedName c.id)
    obtain ⟨hmethods', hfields', hfile'⟩ := ix.enterClass_members c.qualifiedName c.id
    refine ⟨fun name => ?_, hmethods.trans hmethods', hfields.trans hfields', hfile.trans hfile'⟩
    rw [List.foldl_cons, hclasses, lookup_enterClass, List.find?_cons]
    by_cases hname : c.qualifiedName = name
    · cases ix.classes.lookup name <;> simp [hname]
    · simp [hname]

theorem foldl_enterOwned (ms : List Method) (ix : NameIndex) :
    let filled := ms.foldl enterOwned ix
    (∀ owner name, filled.candidates owner name = ix.candidates owner name ++
      (ms.filter fun m => m.owner = some owner && m.name = name).map (·.id)) ∧
      filled.classes = ix.classes ∧ filled.fields = ix.fields ∧ filled.stubFile = ix.stubFile := by
  induction ms generalizing ix with
  | nil => simp
  | cons m rest ih =>
    obtain ⟨hcandidates, hclasses, hfields, hfile⟩ := ih (ix.enterOwned m)
    cases howner : m.owner with
    | none =>
      have hsame : ix.enterOwned m = ix := by rw [enterOwned, howner]
      rw [hsame] at hcandidates hclasses hfields hfile
      refine ⟨fun owner name => ?_, ?_, ?_, ?_⟩
      · rw [List.foldl_cons, hsame, hcandidates]
        simp [howner]
      all_goals rwa [List.foldl_cons, hsame]
    | some o =>
      have hentered : ix.enterOwned m = ix.enterMethod o m.name m.id := by rw [enterOwned, howner]
      rw [hentered] at hcandidates hclasses hfields hfile
      refine ⟨fun owner name => ?_, ?_, ?_, ?_⟩
      · rw [List.foldl_cons, hentered, hcandidates, candidates_enterMethod, List.append_assoc]
        by_cases hkey : owner = o ∧ name = m.name
        · simp [howner, hkey.1, hkey.2]
        · have hother : ¬ (o = owner ∧ m.name = name) := fun h => hkey ⟨h.1.symm, h.2.symm⟩
          simp [howner, hkey, hother]
      all_goals rwa [List.foldl_cons, hentered]

theorem foldl_enterField (fs : List Field) (owner : ClassId) (ix : NameIndex) :
    let filled := fs.foldl (fun ix f => ix.enterField owner f.name f.id) ix
    (∀ owner' name, filled.fields.find? owner' name =
      if owner' = owner then ((fs.filter (·.name = name)).getLast?.map (·.id) <|>
        ix.fields.find? owner name)
      else ix.fields.find? owner' name) ∧
      filled.classes = ix.classes ∧ filled.methods = ix.methods ∧
      filled.stubFile = ix.stubFile := by
  induction fs generalizing ix with
  | nil =>
    refine ⟨fun owner' name => ?_, rfl, rfl, rfl⟩
    split
    · rename_i h
      simp [h]
    · rfl
  | cons f rest ih =>
    obtain ⟨hfields, hclasses, hmethods, hfile⟩ := ih (ix.enterField owner f.name f.id)
    refine ⟨fun owner' name => ?_, hclasses, hmethods, hfile⟩
    rw [List.foldl_cons, hfields, enterField, MemberTable.find?_update, MemberTable.find?_update]
    by_cases howner : owner' = owner
    · simp only [howner, true_and, if_true]
      by_cases hname : f.name = name
      · simp only [hname, if_true, List.filter_cons, decide_true, List.getLast?_cons,
          Option.map_some]
        cases (rest.filter (·.name = name)).getLast? <;> rfl
      · simp [hname, Ne.symm hname]
    · simp [howner]

/-- The last field of a name that a class declares. -/
def lastField? (p : Program) (c : TypeDecl) (name : String) : Option FieldId :=
  ((c.fields.filterMap p.field?).filter (·.name = name)).getLast?.map (·.id)

theorem foldl_enterFieldsOf (p : Program) {cs : List TypeDecl} (hnodup : (cs.map (·.id)).Nodup)
    (ix : NameIndex) :
    let filled := cs.foldl (·.enterFieldsOf p) ix
    (∀ owner name, filled.fields.find? owner name =
      ((cs.find? (·.id = owner)).bind (lastField? p · name) <|> ix.fields.find? owner name)) ∧
      filled.classes = ix.classes ∧ filled.methods = ix.methods ∧
      filled.stubFile = ix.stubFile := by
  induction cs generalizing ix with
  | nil => simp
  | cons c rest ih =>
    rw [List.map_cons, List.nodup_cons] at hnodup
    obtain ⟨hfields, hclasses, hmethods, hfile⟩ := ih hnodup.2 (ix.enterFieldsOf p c)
    obtain ⟨hfields', hclasses', hmethods', hfile'⟩ :=
      foldl_enterField (c.fields.filterMap p.field?) c.id ix
    refine ⟨fun owner name => ?_, hclasses.trans hclasses', hmethods.trans hmethods',
      hfile.trans hfile'⟩
    rw [List.foldl_cons, hfields, enterFieldsOf, hfields', List.find?_cons]
    by_cases howner : c.id = owner
    · have hapart : rest.find? (·.id = owner) = none := by
        refine List.find?_eq_none.mpr fun d hd hid => hnodup.1 ?_
        rw [howner, ← of_decide_eq_true hid]
        exact List.mem_map_of_mem hd
      simp [howner, hapart, lastField?]
    · simp [howner, Ne.symm howner]

/-! ## In step with the program -/

/-- The tables hold what a search of the program finds. -/
structure InStep (ix : NameIndex) (p : Program) : Prop where
  classes : ∀ name, ix.classes.lookup name = (p.findClass? name).map (·.id)
  methods : ∀ owner name, ix.candidates owner name = (p.methodsNamed owner name).map (·.id)
  fields : ∀ owner name, ix.fields.find? owner name = p.ownField? owner name
  stubFile : ix.stubFile = p.stubFile?

end NameIndex

namespace Program

variable {p q : Program}

theorem ids_classes (p : Program) :
    p.classes.toList.map (·.id) = (List.range p.classes.size).map ClassId.mk := by
  refine List.ext_getElem (by simp) fun i hi hi' => ?_
  have hlt : i < p.classes.size := by simpa using hi
  have hid := p.classes_numbered i p.classes[i] (Array.getElem?_eq_getElem hlt)
  simpa using hid

theorem nodup_ids_classes (p : Program) : (p.classes.toList.map (·.id)).Nodup := by
  rw [ids_classes]
  exact List.nodup_range.map fun _ _ h => ClassId.mk.inj h

theorem find?_id_classes (p : Program) (id : ClassId) :
    p.classes.toList.find? (·.id = id) = p.class? id := by
  cases hc : p.class? id with
  | none =>
    refine List.find?_eq_none.mpr fun d hd hid => ?_
    obtain ⟨i, hi⟩ := Array.mem_iff_getElem?.mp (Array.mem_toList_iff.mp hd)
    have hfound := p.classes_numbered i d hi
    rw [← of_decide_eq_true hid, hfound, class?, hi] at hc
    cases hc
  | some c =>
    obtain ⟨hlt, hget⟩ := Array.getElem?_eq_some_iff.mp hc
    refine List.find?_eq_some_iff_getElem.mpr ⟨?_, id.index,
      by simpa using hlt, by simpa using hget, fun j hj => ?_⟩
    · simpa using p.classes_numbered id.index c hc
    · have hlt' : j < p.classes.size := Nat.lt_trans hj hlt
      have hid := p.classes_numbered j p.classes[j] (Array.getElem?_eq_getElem hlt')
      have hne : ClassId.mk j ≠ id := by
        rintro rfl
        exact Nat.lt_irrefl _ hj
      simpa [hid] using hne

/-! ## What changes do to a search -/

theorem findClass?_modifyClass (p : Program) (id : ClassId) {f : TypeDecl → TypeDecl}
    (hname : ∀ c, (f c).qualifiedName = c.qualifiedName) (name : String) :
    ((p.modifyClass id f).findClass? name).map (·.id) = (p.findClass? name).map (·.id) := by
  simp only [findClass?, modifyClass, Array.toList_modify]
  refine @find?_modify TypeDecl ClassId (·.qualifiedName = name) (·.id)
    (fun c => { f c with id := c.id })
    (fun c => ?_) (fun _ => rfl) _ _
  rw [hname]

theorem findClass?_addClass_map (p : Program) (c : TypeDecl) (name : String) :
    ((p.addClass c).2.findClass? name).map (·.id) =
      ((p.findClass? name).map (·.id) <|> if c.qualifiedName = name then some ⟨p.classes.size⟩
        else none) := by
  have hlink : ((p.linkClass ⟨p.classes.size⟩ c).findClass? name).map (·.id) =
      (p.findClass? name).map (·.id) := by
    unfold linkClass
    split
    · exact p.findClass?_modifyClass _ (by intro; rfl) name
    · rfl
  rw [← hlink]
  simp only [addClass, pushClass, bump, findClass?, Array.toList_push, List.find?_append,
    size_classes_linkClass]
  by_cases hname : c.qualifiedName = name
  · cases (p.linkClass ⟨p.classes.size⟩ c).classes.toList.find? (·.qualifiedName = name) <;>
      simp [hname]
  · simp [hname]

theorem findClass?_addMethod (p : Program) (m : Method) (name : String) :
    ((p.addMethod m).2.findClass? name).map (·.id) = (p.findClass? name).map (·.id) := by
  have hlink : (p.addMethod m).2.findClass? name =
      (p.relinkMethod m (· ++ [⟨p.methodSlots.size⟩])).findClass? name := rfl
  rw [hlink]
  unfold relinkMethod
  split
  · exact p.findClass?_modifyClass _ (by intro; rfl) name
  · rfl

theorem findClass?_addField (p : Program) (f : Field) (name : String) :
    ((p.addField f).2.findClass? name).map (·.id) = (p.findClass? name).map (·.id) :=
  p.findClass?_modifyClass f.owner (by intro; rfl) name

theorem methodsNamed_addMethod_map (p : Program) {m : Method} {owner : ClassId}
    (howner : m.owner = some owner) (owner' : ClassId) (name : String) :
    ((p.addMethod m).2.methodsNamed owner' name).map (·.id) =
      (p.methodsNamed owner' name).map (·.id) ++
        if owner' = owner ∧ name = m.name then [⟨p.methodSlots.size⟩] else [] := by
  by_cases hkey : owner' = owner ∧ name = m.name
  · rw [hkey.1, hkey.2, p.methodsNamed_addMethod howner, if_pos ⟨rfl, rfl⟩, List.map_append]
    rfl
  · have hother : ¬ (owner = owner' ∧ m.name = name) := fun h => hkey ⟨h.1.symm, h.2.symm⟩
    simp [addMethod, pushMethod, bump, methodsNamed, methods, howner, hkey, hother]

theorem ids_methodsNamed (p : Program) (owner : ClassId) (name : String) :
    (p.methodsNamed owner name).map (·.id) =
    p.methodSlots.toList.filterMap fun slot =>
      (slot.filter fun m => m.owner = some owner && m.name = name).map (·.id) := by
  rw [methodsNamed, methods, List.filter_filterMap, List.map_filterMap]
  rfl

theorem filterMap_modify {α β : Type} {key : α → Option β} {g : α → α}
    (hkey : ∀ x, key (g x) = key x) (xs : List α) (i : Nat) :
    (xs.modify i g).filterMap key = xs.filterMap key := by
  induction xs generalizing i with
  | nil => simp
  | cons x rest ih =>
    cases i with
    | zero => rw [List.modify_zero_cons, List.filterMap_cons, List.filterMap_cons, hkey]
    | succ i => rw [List.modify_succ_cons, List.filterMap_cons, List.filterMap_cons, ih]

theorem methodsNamed_modifyMethod (p : Program) (id : MethodId) (body : Stmt) (owner : ClassId)
    (name : String) :
    ((p.modifyMethod id fun m => { m with body := some body }).methodsNamed owner name).map (·.id) =
      (p.methodsNamed owner name).map (·.id) := by
  rw [ids_methodsNamed, ids_methodsNamed, modifyMethod, Array.toList_modify]
  refine filterMap_modify (fun slot => ?_) _ _
  cases slot with
  | none => rfl
  | some m => simp only [Option.map_some, Option.filter_some]; split <;> rfl

end Program

/-! ## Steps keep the tables in step -/

namespace NameIndex

variable {ix : NameIndex} {p : Program}

theorem InStep.freshNode (h : ix.InStep p) : ix.InStep p.freshNode.2 :=
  ⟨h.classes, h.methods, h.fields, h.stubFile⟩

theorem InStep.addFile (h : ix.InStep p) (hnone : p.stubFile? = none) :
    InStep { ix with stubFile := some ⟨p.files.size⟩ }
      (p.addFile Program.stubPath none [] .library).2 where
  classes := h.classes
  methods := h.methods
  fields := h.fields
  stubFile := by
    have hmade : p.stubFile = p.addFile Program.stubPath none [] .library := by
      simp [Program.stubFile, hnone]
    rw [← hmade, p.stubFile?_stubFile, hmade]
    rfl

theorem InStep.addClass (h : ix.InStep p) {c : TypeDecl} {name : String}
    (hname : c.qualifiedName = name) (hfields : c.fields = []) :
    (ix.enterClass name ⟨p.classes.size⟩).InStep (p.addClass c).2 := by
  subst hname
  obtain ⟨hmethods', hfields', hfile'⟩ := ix.enterClass_members c.qualifiedName ⟨p.classes.size⟩
  refine ⟨fun name => ?_, fun owner name => ?_, fun owner name => ?_, ?_⟩
  · rw [lookup_enterClass, h.classes, p.findClass?_addClass_map]
  · have hslots : (p.addClass c).2.methodSlots = p.methodSlots := p.methodSlots_linkClass _ c
    rw [candidates, hmethods', ← candidates, h.methods, Program.methodsNamed, Program.methodsNamed,
      Program.methods, Program.methods, hslots]
  · rw [hfields', h.fields, p.ownField?_addClass hfields]
  · exact hfile'.trans (h.stubFile.trans (p.stubFile?_linkClass _ c).symm)

theorem InStep.addMethod (h : ix.InStep p) {m : Method} {owner : ClassId} {name : String}
    (howner : m.owner = some owner) (hname : m.name = name) :
    (ix.enterMethod owner name ⟨p.methodSlots.size⟩).InStep (p.addMethod m).2 where
  classes name := (h.classes name).trans (p.findClass?_addMethod m name).symm
  methods owner' name' := by
    rw [candidates_enterMethod, h.methods, p.methodsNamed_addMethod_map howner, hname]
  fields owner' name := (h.fields owner' name).trans (p.ownField?_addMethod m owner' name).symm
  stubFile := by
    have hfiles : (p.addMethod m).2.files = p.files := p.files_relinkMethod m _
    refine h.stubFile.trans ?_
    rw [Program.stubFile?, Program.stubFile?, Program.fileByPath?, Program.fileByPath?, hfiles]

theorem InStep.addField (h : ix.InStep p) (hp : p.Grounded) {f : Field} {owner : ClassId}
    {name : String} {c : TypeDecl} (hc : p.class? owner = some c) (howner : f.owner = owner)
    (hname : f.name = name) :
    (ix.enterField owner name ⟨p.fields.size⟩).InStep (p.addField f).2 where
  classes name' := (h.classes name').trans (p.findClass?_addField f name').symm
  methods := h.methods
  fields owner' name' := by
    subst howner hname
    rw [enterField, MemberTable.find?_update]
    split
    · rename_i hkey
      rw [hkey.1, hkey.2, p.ownField?_addField_self hc]
    · rename_i hkey
      rw [h.fields, Program.ownField?_addField hp hkey]
  stubFile := h.stubFile

theorem InStep.modifyBody (h : ix.InStep p) (id : MethodId) (body : Stmt) :
    ix.InStep (p.modifyMethod id fun m => { m with body := some body }) where
  classes := h.classes
  methods owner name := (h.methods owner name).trans
    (p.methodsNamed_modifyMethod id body owner name).symm
  fields := h.fields
  stubFile := h.stubFile

/-! ## The start -/

theorem enterClasses_spec (p : Program) :
    let filled := ({} : NameIndex).enterClasses p
    (∀ name, filled.classes.lookup name = (p.findClass? name).map (·.id)) ∧
      filled.methods = {} ∧ filled.fields = {} ∧ filled.stubFile = p.stubFile? := by
  obtain ⟨hclasses, hrest⟩ := foldl_enterClass p.classes.toList { stubFile := p.stubFile? }
  refine ⟨fun name => (hclasses name).trans ?_, hrest⟩
  rw [AList.lookup_empty]
  rfl

theorem enterMembers_spec (ix : NameIndex) (p : Program) :
    let filled := ix.enterMembers p
    (∀ owner name, filled.candidates owner name = ix.candidates owner name ++
      (p.methodsNamed owner name).map (·.id)) ∧
      (∀ owner name, filled.fields.find? owner name =
        (p.ownField? owner name <|> ix.fields.find? owner name)) ∧
      filled.classes = ix.classes ∧ filled.stubFile = ix.stubFile := by
  obtain ⟨hcandidates, hclasses, hfields, hfile⟩ := foldl_enterOwned p.methods ix
  obtain ⟨hlast, hclasses', hmethods', hfile'⟩ :=
    foldl_enterFieldsOf p p.nodup_ids_classes (p.methods.foldl enterOwned ix)
  refine ⟨fun owner name => ?_, fun owner name => ?_, hclasses'.trans hclasses, hfile'.trans hfile⟩
  · refine Eq.trans ?_ (hcandidates owner name)
    exact congrArg (fun t : MemberTable _ => (t.find? owner name).getD []) hmethods'
  · refine (hlast owner name).trans ?_
    rw [hfields, p.find?_id_classes, Program.ownField?]
    cases p.class? owner <;> rfl

theorem findClass?_qualifySignatures_map (p : Program) (name : String) :
    (p.qualifySignatures.findClass? name).map (·.id) = (p.findClass? name).map (·.id) := by
  rw [Program.findClass?, Program.qualifySignatures, Array.toList_map, List.find?_map,
    Option.map_map]
  rfl

end NameIndex

namespace IndexedProgram

def InStep (s : IndexedProgram) : Prop := s.index.InStep s.program

/-- **At the start the tables are in step.** -/
theorem inStep_start (p : Program) : (start p).InStep := by
  obtain ⟨hclasses, hmethods, hfields, hfile⟩ := NameIndex.enterClasses_spec p
  obtain ⟨hcandidates, hlast, hclasses', hfile'⟩ :=
    (({} : NameIndex).enterClasses p).enterMembers_spec p.qualifySignatures
  refine ⟨fun name => ?_, fun owner name => ?_, fun owner name => ?_, hfile'.trans hfile⟩
  · refine Eq.trans ?_ (NameIndex.findClass?_qualifySignatures_map p name).symm
    rw [← hclasses, ← hclasses']
    rfl
  · refine (hcandidates owner name).trans ?_
    rw [NameIndex.candidates, hmethods]
    rfl
  · refine (hlast owner name).trans ?_
    have hempty : ({} : MemberTable FieldId).find? owner name = none := rfl
    have hprogram : (start p).program = p.qualifySignatures := rfl
    rw [hfields, hempty, hprogram]
    cases p.qualifySignatures.ownField? owner name <;> rfl

/-! ## The run -/

/-- One step of a resolution with its tables: what is added is entered under its name. -/
inductive Step (s : IndexedProgram) : IndexedProgram → Prop
  | node : Step s ⟨s.program.freshNode.2, s.index⟩
  | file (hnone : s.index.stubFile = none) : Step s s.stubFile.2
  | standInClass {c : TypeDecl} (hfields : c.fields = []) :
    Step s ⟨(s.program.addClass c).2, s.index.enterClass c.qualifiedName (s.program.addClass c).1⟩
  | standInField {f : Field} {c : TypeDecl} (hc : s.program.class? f.owner = some c) :
    Step s ⟨(s.program.addField f).2, s.index.enterField f.owner f.name (s.program.addField f).1⟩
  | standInMethod {m : Method} {owner : ClassId} (howner : m.owner = some owner) :
    Step s ⟨(s.program.addMethod m).2, s.index.enterMethod owner m.name (s.program.addMethod m).1⟩
  | body (id : MethodId) (body : Stmt) :
    Step s ⟨s.program.modifyMethod id fun m => { m with body := some body }, s.index⟩

/-- Steps one after another. -/
def Steps : IndexedProgram → IndexedProgram → Prop := Relation.ReflTransGen Step

variable {s t : IndexedProgram}

theorem stubFile_of_none (hnone : s.index.stubFile = none) : s.stubFile =
    (⟨s.program.files.size⟩, ⟨(s.program.addFile Program.stubPath none [] .library).2,
      { s.index with stubFile := some ⟨s.program.files.size⟩ }⟩) := by
  simp [stubFile, hnone, Program.addFile]

/-- **A step keeps the tables in step.** -/
theorem InStep.step (h : s.InStep) (hs : s.program.Grounded) (hstep : s.Step t) : t.InStep := by
  cases hstep with
  | node => exact NameIndex.InStep.freshNode h
  | file hnone =>
    rw [stubFile_of_none hnone]
    exact NameIndex.InStep.addFile h (h.stubFile.symm.trans hnone)
  | standInClass hfields => exact NameIndex.InStep.addClass h rfl hfields
  | standInField hc => exact NameIndex.InStep.addField h hs hc rfl rfl
  | standInMethod howner => exact NameIndex.InStep.addMethod h howner rfl
  | body id body => exact NameIndex.InStep.modifyBody h id body

theorem InStep.exists_step (h : s.InStep) {q : Program} (hstep : s.program.Resolving q) :
    ∃ t, s.Step t ∧ t.program = q := by
  cases hstep with
  | body hm hbody body => exact ⟨_, .body _ body, rfl⟩
  | adding hadd =>
    cases hadd with
    | node => exact ⟨_, .node, rfl⟩
    | file hnone =>
      have hfile := h.stubFile.trans hnone
      exact ⟨_, .file hfile, by rw [stubFile_of_none hfile]⟩
    | standInClass hstand hmethods hfields hnew hfile => exact ⟨_, .standInClass hfields, rfl⟩
    | standInField hstand howner hnone hknown => exact ⟨_, .standInField howner, rfl⟩
    | standInMethod hstand hplain howner hclass hfile => exact ⟨_, .standInMethod howner, rfl⟩

/-- **The tables follow a resolution and stay in step with it.** -/
theorem exists_steps_of_resolves (h : s.InStep) (hs : s.program.Grounded) {q : Program}
    (hrun : s.program.Resolves q) : ∃ t, s.Steps t ∧ t.program = q ∧ t.InStep := by
  induction hrun with
  | refl => exact ⟨s, .refl, rfl, h⟩
  | @tail p q hsteps hstep ih =>
    obtain ⟨t, ht, rfl, hin⟩ := ih
    obtain ⟨u, hu, hprogram⟩ := hin.exists_step hstep
    exact ⟨u, ht.tail hu, hprogram, hin.step (hs.resolves hsteps) hu⟩

/-- **From the start to the end of a resolution the tables are in step.** -/
theorem exists_steps_resolve {p : Program} (hp : p.Grounded) :
    ∃ t, (start p).Steps t ∧ t.program = p.resolve ∧ t.InStep :=
  exists_steps_of_resolves (inStep_start p) hp.qualifySignatures p.resolves_resolve

/-! ## The operations -/

/-- An answer with the tables is the one without them, over the same program, and the tables are in
step with it. -/
structure Mirrors {α : Type} (found : α × IndexedProgram) (searched : α × Program) : Prop where
  answer : found.1 = searched.1
  program : found.2.program = searched.2
  inStep : found.2.InStep

theorem Mirrors.pure {α : Type} (h : s.InStep) (a : α) :
    Mirrors (a, s) (a, s.program) := ⟨rfl, rfl, h⟩

theorem mirrors_stubFile (h : s.InStep) : Mirrors s.stubFile s.program.stubFile := by
  cases hfile : s.index.stubFile with
  | some id =>
    have harena : s.program.stubFile? = some id := h.stubFile.symm.trans hfile
    simp only [stubFile, Program.stubFile, hfile, harena]
    exact .pure h id
  | none =>
    have harena : s.program.stubFile? = none := h.stubFile.symm.trans hfile
    rw [stubFile_of_none hfile, Program.stubFile, harena]
    exact ⟨rfl, rfl, NameIndex.InStep.addFile h harena⟩

theorem mirrors_stubClass (h : s.InStep) (name : String) :
    Mirrors (s.stubClass name) (s.program.stubClass name) := by
  have hclass := h.classes name
  unfold stubClass Program.stubClass
  cases hfound : s.program.findClass? name with
  | some c =>
    rw [hfound, Option.map_some] at hclass
    rw [hclass]
    exact .pure h c.id
  | none =>
    rw [hfound, Option.map_none] at hclass
    rw [hclass]
    obtain ⟨hfile, hprogram, hin⟩ := mirrors_stubFile h
    dsimp only
    rw [← hfile, ← hprogram]
    exact ⟨rfl, rfl, NameIndex.InStep.addClass hin rfl rfl⟩

theorem mirrors_classByName (h : s.InStep) (name : String) :
    Mirrors (s.classByName name) (s.program.classByName name) := by
  have hclass := h.classes name
  unfold classByName Program.classByName
  cases hfound : s.program.findClass? name with
  | some c =>
    rw [hfound, Option.map_some] at hclass
    rw [hclass]
    exact .pure h (some c.id)
  | none =>
    rw [hfound, Option.map_none] at hclass
    rw [hclass]
    dsimp only
    split
    · obtain ⟨hid, hprogram, hin⟩ := mirrors_stubClass h name
      exact ⟨congrArg some hid, hprogram, hin⟩
    · exact .pure h none

/-! ### Stand-ins for members -/

theorem inStep_stubParameters {ix : NameIndex} {p : Program} (h : ix.InStep p) (arity : Nat) :
    ix.InStep (p.stubParameters arity).2 :=
  Program.stubParameters_induction (P := fun _ found => ix.InStep found.2) p h
    (fun _ _ h => h.freshNode) arity

theorem inStep_addStubMethodIn {ix : NameIndex} {p : Program} (h : ix.InStep p) (file : FileId)
    (owner : ClassId) (name : String) (arity : Nat) :
    (ix.enterMethod owner name (p.addStubMethodIn file owner name arity).1).InStep
      (p.addStubMethodIn file owner name arity).2 :=
  (inStep_stubParameters h arity).freshNode.addMethod rfl rfl

theorem mirrors_addStubMethod (h : s.InStep) (owner : ClassId) (name : String) (arity : Nat) :
    Mirrors (s.addStubMethod owner name arity) (s.program.addStubMethod owner name arity) := by
  unfold addStubMethod Program.addStubMethod
  cases s.program.class? owner with
  | some c => exact ⟨rfl, rfl, inStep_addStubMethodIn h ..⟩
  | none =>
    obtain ⟨hfile, hprogram, hin⟩ := mirrors_stubFile h
    dsimp only
    rw [← hfile, ← hprogram]
    exact ⟨rfl, rfl, inStep_addStubMethodIn hin ..⟩

theorem find?_candidates (h : s.InStep) (owner : ClassId) (name : String) (fits : Method → Bool) :
    (s.index.candidates owner name).find? (fun id => (s.program.method? id).any fits) =
      ((s.program.methodsNamed owner name).find? fits).map (·.id) := by
  rw [h.methods, List.find?_map]
  refine congrArg (Option.map _) (List.find?_congr fun m hm => ?_)
  rw [Function.comp_apply, (Program.mem_methodsNamed.mp hm).1, Option.any_some]

theorem mirrors_stubMethod (h : s.InStep) (owner : ClassId) (name : String) (arity : Nat) :
    Mirrors (s.stubMethod owner name arity) (s.program.stubMethod owner name arity) := by
  simp only [stubMethod, Program.stubMethod]
  rw [find?_candidates h]
  cases (s.program.methodsNamed owner name).find? (·.params.length = arity) with
  | some m => exact .pure h m.id
  | none => exact mirrors_addStubMethod h owner name arity

theorem mirrors_addStubField (h : s.InStep) (hs : s.program.Grounded) {owner : ClassId}
    {c : TypeDecl} (hc : s.program.class? owner = some c) (name : String) (type : ErasedType) :
    Mirrors (s.addStubField owner name type) (s.program.addStubField owner name type) :=
  ⟨rfl, rfl, (NameIndex.InStep.freshNode h).addField hs.freshNode hc rfl rfl⟩

/-! ### Searches -/

theorem isSome_lookup_classes (h : s.InStep) (name : String) :
    (s.index.classes.lookup name).isSome = s.program.hasClass name := by
  rw [h.classes, Option.isSome_map, Program.hasClass]

theorem superClass?_eq (h : s.InStep) (id : ClassId) :
    s.superClass? id = s.program.superClass? id := by
  rw [superClass?, Program.superClass?]
  cases (s.program.class? id).bind (·.superName) with
  | none => rfl
  | some name => exact h.classes name

theorem findFieldUpTo_eq (h : s.InStep) (name : String) (n : Nat) (id : ClassId) :
    s.findFieldUpTo name n id = s.program.findFieldUpTo name n id := by
  induction n generalizing id with
  | zero => rfl
  | succ n ih =>
    rw [findFieldUpTo, Program.findFieldUpTo, h.fields, superClass?_eq h, funext ih]

theorem findField?_eq (h : s.InStep) (id : ClassId) (name : String) :
    s.findField? id name = s.program.findField? id name :=
  findFieldUpTo_eq h name Program.chainLimit id

theorem findConstructor?_eq (h : s.InStep) (type : ErasedType) (arity : Nat) :
    s.findConstructor? type arity = s.program.findConstructor? type arity := by
  rw [findConstructor?, Program.findConstructor?, h.classes]
  cases hfound : s.program.findClass? type.name with
  | none => rfl
  | some c =>
    rw [Option.map_some, Option.bind_some, Option.bind_some,
      (Program.class?_of_findClass? hfound).1, Option.bind_some]
    exact find?_candidates h c.id c.name fun m => m.isConstructor && m.acceptsArity arity

theorem pickByArity_eq (h : s.InStep) (id : ClassId) (name : String) (arity : Nat) :
    s.pickByArity (s.index.candidates id name) arity =
      (Program.pickByArity (s.program.methodsNamed id name) arity).map (·.id) := by
  rw [pickByArity, Program.pickByArity, find?_candidates h, h.methods, List.head?_map]
  cases (s.program.methodsNamed id name).find? (·.acceptsArity arity) <;> rfl

theorem outsideSuperName?_eq (h : s.InStep) (id : ClassId) :
    s.outsideSuperName? id = s.program.outsideSuperName? id := by
  rw [outsideSuperName?, Program.outsideSuperName?]
  congr 1
  funext name
  rw [← Option.not_isSome, isSome_lookup_classes h]

theorem mirrors_stubClass_stubMethod (h : s.InStep) (className name : String) (arity : Nat) :
    Mirrors ((s.stubClass className).2.stubMethod (s.stubClass className).1 name arity)
      ((s.program.stubClass className).2.stubMethod
        (s.program.stubClass className).1 name arity) := by
  obtain ⟨hclass, hprogram, hin⟩ := mirrors_stubClass h className
  rw [← hclass, ← hprogram]
  exact mirrors_stubMethod hin _ name arity

theorem Mirrors.some {α : Type} {found : α × IndexedProgram} {searched : α × Program}
    (h : Mirrors found searched) :
    Mirrors (Option.some found.1, found.2) (Option.some searched.1, searched.2) :=
  ⟨congrArg Option.some h.answer, h.program, h.inStep⟩

theorem mirrors_findMethodUpTo (h : s.InStep) (name : String) (arity n : Nat) (id : ClassId) :
    Mirrors (findMethodUpTo name arity n id s)
      (Program.findMethodUpTo name arity n id s.program) := by
  induction n generalizing id with
  | zero => exact .pure h none
  | succ n ih =>
    rw [findMethodUpTo, Program.findMethodUpTo, pickByArity_eq h, outsideSuperName?_eq h,
      superClass?_eq h]
    cases Program.pickByArity (s.program.methodsNamed id name) arity with
    | some m => exact .pure h (some m.id)
    | none =>
      dsimp only [Option.map_none]
      split
      · exact (mirrors_stubMethod h id name arity).some
      · cases s.program.outsideSuperName? id with
        | some superName => exact (mirrors_stubClass_stubMethod h superName name arity).some
        | none =>
          cases s.program.superClass? id with
          | some c => exact ih c
          | none => exact .pure h none

theorem mirrors_findMethodIn (h : s.InStep) (id : ClassId) (name : String) (arity : Nat) :
    Mirrors (s.findMethodIn id name arity) (s.program.findMethodIn id name arity) :=
  mirrors_findMethodUpTo h name arity Program.chainLimit id

theorem mirrors_objectMethod (h : s.InStep) (name : String) (arity : Nat) :
    Mirrors (s.objectMethod name arity) (s.program.objectMethod name arity) := by
  unfold objectMethod Program.objectMethod
  split
  · exact (mirrors_stubClass_stubMethod h Library.objectClass name arity).some
  · exact .pure h none

end IndexedProgram

end KernelLint
