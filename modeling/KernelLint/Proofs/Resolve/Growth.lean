import KernelLint.Proofs.Program.Links
import KernelLint.Proofs.Resolve.Steps

/-!
# Growing programs

What all steps of a resolution have in common: every entity stays where it is and keeps everything
but its list of members and, in the case of a method, its body; whatever is new is a stand-in
(`Program.Grows`). Growth is reflexive and transitive, so that a fact about a single entity that
holds at one point of a resolution holds from there on.
-/

namespace KernelLint

/-- The second file is the first one, perhaps with more classes. -/
structure SourceFile.Grows (f f' : SourceFile) : Prop where
  same : f' = { f with classes := f'.classes }
  classes : f.classes <+: f'.classes

/-- The second class is the first one, perhaps with more methods and fields. -/
structure TypeDecl.Grows (c c' : TypeDecl) : Prop where
  same : c' = { c with methods := c'.methods, fields := c'.fields }
  methods : c.methods <+: c'.methods
  fields : c.fields <+: c'.fields

/-- The method with an empty block in the place of its body, if it has one. -/
def Method.outline (m : Method) : Method := { m with body := m.body.map fun _ => .block default [] }

theorem Method.eq_of_outline_eq {m m' : Method} (h : m'.outline = m.outline) :
    m' = { m with body := m'.body } ∧ m'.body.isSome = m.body.isSome := by
  have hwith : ({ m'.outline with body := m'.body } : Method) =
      { m.outline with body := m'.body } := by rw [h]
  have hbody : m'.outline.body.isSome = m.outline.body.isSome := by rw [h]
  exact ⟨hwith, by simpa [outline] using hbody⟩

theorem SourceFile.Grows.refl (f : SourceFile) : f.Grows f := ⟨rfl, List.prefix_rfl⟩

theorem SourceFile.Grows.trans {f g h : SourceFile} (hfg : f.Grows g) (hgh : g.Grows h) :
    f.Grows h :=
  ⟨hgh.same.trans (by rw [hfg.same]), hfg.classes.trans hgh.classes⟩

theorem TypeDecl.Grows.refl (c : TypeDecl) : c.Grows c := ⟨rfl, List.prefix_rfl, List.prefix_rfl⟩

theorem TypeDecl.Grows.trans {c d e : TypeDecl} (hcd : c.Grows d) (hde : d.Grows e) : c.Grows e :=
  ⟨hde.same.trans (by rw [hcd.same]), hcd.methods.trans hde.methods, hcd.fields.trans hde.fields⟩

section

variable {c c' : TypeDecl} (h : c.Grows c')
include h

theorem TypeDecl.Grows.id_eq : c'.id = c.id := by rw [h.same]

theorem TypeDecl.Grows.name_eq : c'.name = c.name := by rw [h.same]

theorem TypeDecl.Grows.qualifiedName_eq : c'.qualifiedName = c.qualifiedName := by rw [h.same]

theorem TypeDecl.Grows.file_eq : c'.file = c.file := by rw [h.same]

theorem TypeDecl.Grows.outer_eq : c'.outer = c.outer := by rw [h.same]

theorem TypeDecl.Grows.superName_eq : c'.superName = c.superName := by rw [h.same]

end

theorem SourceFile.IsStandIn.grows {f f' : SourceFile} (h : f.IsStandIn) (hgrows : f.Grows f') :
    f'.IsStandIn := by
  rw [hgrows.same]
  exact ⟨h.path_eq, h.package_eq, h.imports_eq, h.origin_eq⟩

theorem TypeDecl.IsStandIn.grows {c c' : TypeDecl} (h : c.IsStandIn) (hgrows : c.Grows c') :
    c'.IsStandIn := by
  rw [hgrows.same]
  exact ⟨h.name_eq, h.dotted, h.kind_eq, h.outer_eq, h.superName_eq, h.modifiers_eq, h.nested_eq,
    h.isLocal_eq⟩

namespace Program

/-- The second program is the first one with perhaps more stand-ins and other bodies. -/
structure Grows (p q : Program) : Prop where
  file : ∀ {id f}, p.file? id = some f → ∃ f', q.file? id = some f' ∧ f.Grows f'
  type : ∀ {id c}, p.class? id = some c → ∃ c', q.class? id = some c' ∧ c.Grows c'
  field : ∀ {id f}, p.field? id = some f → q.field? id = some f
  method : ∀ {id}, p.HasGiven id →
    (q.method? id).map Method.outline = (p.method? id).map Method.outline
  slots : p.methodSlots.size ≤ q.methodSlots.size
  stubFile : ∀ {file}, p.stubFile? = some file → q.stubFile? = some file
  newFile : ∀ {id f}, q.file? id = some f → p.file? id = none → f.IsStandIn ∧ q.stubFile? = some id
  newType : ∀ {id c}, q.class? id = some c → p.class? id = none →
    c.IsStandIn ∧ q.stubFile? = some c.file
  newField : ∀ {id f}, q.field? id = some f → p.field? id = none → f.IsStandIn ∧
    ∃ c, q.class? f.owner = some c ∧ Library.staticFieldType? c.qualifiedName f.name =
      some f.type.type
  newMethod : ∀ {id m}, q.method? id = some m → ¬ p.HasGiven id → m.IsStandIn ∧
    ∃ owner c, m.owner = some owner ∧ q.class? owner = some c ∧ m.file = c.file

variable {p q r : Program}

theorem Grows.method?_of_some (h : p.Grows q) {id : MethodId} {m : Method}
    (hm : p.method? id = some m) :
    ∃ m', q.method? id = some m' ∧ m' = { m with body := m'.body } ∧
      m'.body.isSome = m.body.isSome := by
  have hsame := h.method (index_lt_of_method? hm)
  rw [hm] at hsame
  obtain ⟨m', hm', houtline⟩ := Option.map_eq_some_iff.mp hsame
  exact ⟨m', hm', Method.eq_of_outline_eq houtline⟩

theorem Grows.method?_of_hasGiven (h : p.Grows q) {id : MethodId} {m : Method}
    (hm : q.method? id = some m) (hid : p.HasGiven id) :
    ∃ m', p.method? id = some m' ∧ m = { m' with body := m.body } ∧
      m.body.isSome = m'.body.isSome := by
  have hsame := h.method hid
  rw [hm] at hsame
  obtain ⟨m', hm', houtline⟩ := Option.map_eq_some_iff.mp hsame.symm
  exact ⟨m', hm', Method.eq_of_outline_eq houtline.symm⟩

theorem findClass?_eq_some_iff {name : String} {c : TypeDecl} : p.findClass? name = some c ↔
    p.class? c.id = some c ∧ c.qualifiedName = name ∧
      ∀ id d, id.index < c.id.index → p.class? id = some d → d.qualifiedName ≠ name := by
  rw [findClass?, List.find?_eq_some_iff_getElem]
  constructor
  · rintro ⟨hname, i, hi, hc, hfirst⟩
    have hfound : p.classes[i]? = some c := by
      rw [← Array.getElem?_toList, List.getElem?_eq_getElem hi, hc]
    have hid := p.classes_numbered i c hfound
    rw [hid]
    refine ⟨hfound, by simpa using hname, fun id d hlt hd => ?_⟩
    obtain ⟨hd', hget⟩ := Array.getElem?_eq_some_iff.mp hd
    have := hfirst id.index hlt
    simpa [hget] using this
  · rintro ⟨hc, hname, hfirst⟩
    obtain ⟨hi, hget⟩ := Array.getElem?_eq_some_iff.mp hc
    refine ⟨by simpa using hname, c.id.index, by simpa using hi, by simpa using hget,
      fun j hj => ?_⟩
    have hlt : j < p.classes.size := Nat.lt_trans hj hi
    have := hfirst ⟨j⟩ p.classes[j] hj (Array.getElem?_eq_getElem hlt)
    simpa using this

/-- A class that was found by its name is found again: stand-ins come after all other classes. -/
theorem Grows.findClass? (h : p.Grows q) {name : String} {c : TypeDecl}
    (hc : p.findClass? name = some c) :
    ∃ c', q.findClass? name = some c' ∧ c.Grows c' := by
  obtain ⟨hfound, hname, hfirst⟩ := findClass?_eq_some_iff.mp hc
  obtain ⟨c', hc', hgrows⟩ := h.type hfound
  have hfound' : q.class? c'.id = some c' := by rw [hgrows.id_eq, hc']
  refine ⟨c', findClass?_eq_some_iff.mpr ⟨hfound', hgrows.qualifiedName_eq.trans hname,
    fun id d hlt hd => ?_⟩, hgrows⟩
  rw [hgrows.id_eq] at hlt
  have hsize : id.index < p.classes.size := Nat.lt_trans hlt (index_lt_of_class? hfound)
  have hold : p.class? id = some p.classes[id.index] := Array.getElem?_eq_getElem hsize
  obtain ⟨d', hd', hdgrows⟩ := h.type hold
  obtain rfl := Option.some.inj (hd'.symm.trans hd)
  rw [hdgrows.qualifiedName_eq]
  exact hfirst id _ hlt hold

theorem Grows.refl (p : Program) : p.Grows p where
  file := fun {_ f} h => ⟨f, h, .refl f⟩
  type := fun {_ c} h => ⟨c, h, .refl c⟩
  field := fun h => h
  method := fun _ => rfl
  slots := Nat.le_refl _
  stubFile := fun h => h
  newFile := fun h hnone => by simp [hnone] at h
  newType := fun h hnone => by simp [hnone] at h
  newField := fun h hnone => by simp [hnone] at h
  newMethod := fun h hnew => absurd (index_lt_of_method? h) hnew

theorem Grows.trans (hpq : p.Grows q) (hqr : q.Grows r) : p.Grows r where
  file := by
    intro id f hf
    obtain ⟨f', hf', hgrows⟩ := hpq.file hf
    obtain ⟨f'', hf'', hgrows'⟩ := hqr.file hf'
    exact ⟨f'', hf'', hgrows.trans hgrows'⟩
  type := by
    intro id c hc
    obtain ⟨c', hc', hgrows⟩ := hpq.type hc
    obtain ⟨c'', hc'', hgrows'⟩ := hqr.type hc'
    exact ⟨c'', hc'', hgrows.trans hgrows'⟩
  field := fun hf => hqr.field (hpq.field hf)
  method := fun hid => (hqr.method (Nat.lt_of_lt_of_le hid hpq.slots)).trans (hpq.method hid)
  slots := Nat.le_trans hpq.slots hqr.slots
  stubFile := fun h => hqr.stubFile (hpq.stubFile h)
  newFile := by
    intro id f hf hnone
    cases hq : q.file? id with
    | none => exact hqr.newFile hf hq
    | some g =>
      obtain ⟨hstand, hstub⟩ := hpq.newFile hq hnone
      obtain ⟨g', hg', hgrows⟩ := hqr.file hq
      obtain rfl : g' = f := Option.some.inj (hg'.symm.trans hf)
      exact ⟨hstand.grows hgrows, hqr.stubFile hstub⟩
  newType := by
    intro id c hc hnone
    cases hq : q.class? id with
    | none => exact hqr.newType hc hq
    | some d =>
      obtain ⟨hstand, hfile⟩ := hpq.newType hq hnone
      obtain ⟨d', hd', hgrows⟩ := hqr.type hq
      obtain rfl : d' = c := Option.some.inj (hd'.symm.trans hc)
      refine ⟨hstand.grows hgrows, hqr.stubFile ?_⟩
      rw [hgrows.file_eq]
      exact hfile
  newField := by
    intro id f hf hnone
    cases hq : q.field? id with
    | none => exact hqr.newField hf hq
    | some g =>
      obtain rfl : g = f := Option.some.inj ((hqr.field hq).symm.trans hf)
      obtain ⟨hstand, c, hc, hknown⟩ := hpq.newField hq hnone
      obtain ⟨c', hc', hgrows⟩ := hqr.type hc
      refine ⟨hstand, c', hc', ?_⟩
      rw [hgrows.qualifiedName_eq]
      exact hknown
  newMethod := by
    intro id m hm hnew
    by_cases hgiven : q.HasGiven id
    · obtain ⟨x, hx, hsame, hbody⟩ := hqr.method?_of_hasGiven hm hgiven
      obtain ⟨hstand, owner, c, howner, hc, hfile⟩ := hpq.newMethod hx hnew
      obtain ⟨c', hc', hgrows⟩ := hqr.type hc
      have hnobody : m.body = none := by simpa [hstand.body_eq] using hbody
      rw [hsame, hnobody]
      refine ⟨⟨rfl, hstand.result_isSome, hstand.throws_eq, hstand.modifiers_eq,
        hstand.annotations_eq, hstand.innerAnnotations_eq⟩, owner, c', howner, hc', ?_⟩
      rw [hgrows.file_eq]
      exact hfile
    · exact hqr.newMethod hm hgiven

/-! ## One step -/

theorem grows_freshNode (p : Program) : p.Grows p.freshNode.2 := by
  have h := Grows.refl p
  exact ⟨h.file, h.type, h.field, h.method, h.slots, h.stubFile, h.newFile, h.newType, h.newField,
    h.newMethod⟩

theorem grows_addFile (hstub : p.stubFile? = none) :
    p.Grows (p.addFile stubPath none [] .library).2 := by
  have hfound : (p.addFile stubPath none [] .library).2.stubFile? = some ⟨p.files.size⟩ := by
    have h := p.stubFile?_stubFile
    rw [stubFile, hstub] at h
    exact h
  have hfile : ∀ id, (p.addFile stubPath none [] .library).2.file? id =
      if id = ⟨p.files.size⟩ then some ⟨⟨p.files.size⟩, stubPath, none, [], [], .library⟩
      else p.file? id :=
    fun id => p.file?_pushFile _ id
  have h := Grows.refl p
  refine ⟨fun {id f} hf => ?_, h.type, h.field, h.method, h.slots, fun hsome => ?_,
    fun {id f} hf hnone => ?_, fun {id c} (hc : p.class? id = some c) hnone => ?_, h.newField,
    h.newMethod⟩
  · have hne : id ≠ ⟨p.files.size⟩ := by
      rintro rfl
      simp [file?_files_size] at hf
    exact ⟨f, by rw [hfile, if_neg hne, hf], .refl f⟩
  · rw [hstub] at hsome
    cases hsome
  · rw [hfile] at hf
    split at hf
    · rename_i hid
      cases hf
      rw [hid]
      exact ⟨⟨rfl, rfl, rfl, rfl⟩, hfound⟩
    · rw [hnone] at hf
      cases hf
  · rw [hnone] at hc
    cases hc

theorem find?_modify {α β : Type} {found : α → Bool} {key : α → β} {g : α → α}
    (hfound : ∀ x, found (g x) = found x) (hkey : ∀ x, key (g x) = key x) (xs : List α) (i : Nat) :
    ((xs.modify i g).find? found).map key = (xs.find? found).map key := by
  induction xs generalizing i with
  | nil => simp
  | cons x rest ih =>
    cases i with
    | zero =>
      rw [List.modify_zero_cons, List.find?_cons, List.find?_cons, hfound]
      cases found x with
      | true => simp [hkey]
      | false => rfl
    | succ i =>
      rw [List.modify_succ_cons, List.find?_cons, List.find?_cons]
      cases found x with
      | true => rfl
      | false => exact ih i

theorem stubFile?_linkClass (p : Program) (id : ClassId) (c : TypeDecl) :
    (p.linkClass id c).stubFile? = p.stubFile? := by
  unfold linkClass
  split
  · rfl
  · simp only [stubFile?, fileByPath?, modifyFile, Array.toList_modify]
    exact @find?_modify SourceFile FileId (·.path.same stubPath) (·.id)
      (fun x => { x with classes := x.classes ++ [id] }) (fun _ => rfl) (fun _ => rfl) _ _

theorem grows_addClass {c : TypeDecl} (hstand : c.IsStandIn) (hfile : p.stubFile? = some c.file) :
    p.Grows (p.addClass c).2 := by
  have hclass : ∀ id, (p.addClass c).2.class? id =
      if id = ⟨p.classes.size⟩ then some { c with id := ⟨p.classes.size⟩ } else p.class? id := by
    intro id
    rw [class?_addClass]
    simp [hstand.outer_eq]
  have hslots : (p.addClass c).2.methodSlots = p.methodSlots := p.methodSlots_linkClass _ c
  have hmethod : ∀ id, (p.addClass c).2.method? id = p.method? id :=
    fun id => by rw [method?, hslots, method?]
  have hfield : ∀ id, (p.addClass c).2.field? id = p.field? id := by
    intro id
    simp [field?, addClass, pushClass, bump]
  have hstub : (p.addClass c).2.stubFile? = p.stubFile? := p.stubFile?_linkClass _ c
  have hfiles : ∀ id, (p.addClass c).2.file? id = (p.file? id).map fun x =>
      if c.outer = none ∧ c.file = id then { x with classes := x.classes ++ [⟨p.classes.size⟩] }
      else x :=
    fun id => p.file?_linkClass _ c id
  have h := Grows.refl p
  refine ⟨fun {id f} hf => ?_, fun {id x} hx => ?_, fun hf => (hfield _).trans hf,
    fun _ => by rw [hmethod], Nat.le_of_eq (by rw [hslots]), fun hf => hstub.trans hf,
    fun {id f} hf hnone => ?_, fun {id x} hx hnone => ?_,
    fun hf hnone => ?_, fun hm hnew => ?_⟩
  · rw [hfiles, hf]
    refine ⟨_, rfl, ?_⟩
    split
    · exact ⟨rfl, List.prefix_append _ _⟩
    · exact .refl f
  · have hne : id ≠ ⟨p.classes.size⟩ := by
      rintro rfl
      simp [class?_classes_size] at hx
    exact ⟨x, by rw [hclass, if_neg hne, hx], .refl x⟩
  · simp [hfiles, hnone] at hf
  · rw [hclass] at hx
    split at hx
    · cases hx
      exact ⟨⟨hstand.name_eq, hstand.dotted, hstand.kind_eq, hstand.outer_eq, hstand.superName_eq,
        hstand.modifiers_eq, hstand.nested_eq, hstand.isLocal_eq⟩, hstub.trans hfile⟩
    · rw [hnone] at hx
      cases hx
  · rw [hfield, hnone] at hf
    cases hf
  · rw [hmethod] at hm
    exact absurd (index_lt_of_method? hm) hnew

theorem grows_addField {f : Field} {c : TypeDecl} (hstand : f.IsStandIn)
    (howner : p.class? f.owner = some c)
    (hknown : Library.staticFieldType? c.qualifiedName f.name = some f.type.type) :
    p.Grows (p.addField f).2 := by
  have hclass := p.class?_addField f
  have hfield := p.field?_addField f
  have h := Grows.refl p
  refine ⟨h.file, fun {id x} hx => ?_, fun {id x} hx => ?_, h.method, h.slots,
    h.stubFile, h.newFile, fun {id x} hx hnone => ?_, fun {id x} hx hnone => ?_,
    fun {id m} (hm : p.method? id = some m) hnew => absurd (index_lt_of_method? hm) hnew⟩
  · rw [hclass, hx]
    refine ⟨_, rfl, ?_⟩
    split
    · exact ⟨rfl, List.prefix_rfl, List.prefix_append _ _⟩
    · exact .refl x
  · have hne : id ≠ ⟨p.fields.size⟩ := by
      rintro rfl
      simp [field?] at hx
    rw [hfield, if_neg hne, hx]
  · simp [hclass, hnone] at hx
  · rw [hfield] at hx
    split at hx
    · cases hx
      refine ⟨⟨hstand.modifiers_eq, hstand.init_eq⟩,
        { c with fields := c.fields ++ [⟨p.fields.size⟩] }, ?_, hknown⟩
      simp [hclass, howner]
    · rw [hnone] at hx
      cases hx

theorem grows_addMethod {m : Method} {owner : ClassId} {c : TypeDecl} (hstand : m.IsStandIn)
    (howner : m.owner = some owner) (hc : p.class? owner = some c) (hfile : m.file = c.file) :
    p.Grows (p.addMethod m).2 := by
  have hclass := p.class?_addMethod m
  have hfiles : (p.addMethod m).2.files = p.files := p.files_relinkMethod m _
  have hfields : (p.addMethod m).2.fields = p.fields := p.fields_relinkMethod m _
  have hsize : (p.addMethod m).2.methodSlots.size = p.methodSlots.size + 1 := by
    simp [addMethod, pushMethod, bump]
  refine ⟨fun {id f} hf => ⟨f, ?_, .refl f⟩, fun {id x} hx => ?_, fun hf => ?_,
    fun {id} hid => ?_,
    by omega, fun hf => ?_, fun hf hnone => ?_, fun {id x} hx hnone => ?_, fun hf hnone => ?_,
    fun {id x} hx hnew => ?_⟩
  · rw [file?, hfiles]
    exact hf
  · rw [hclass, hx]
    refine ⟨_, rfl, ?_⟩
    split
    · exact ⟨rfl, List.prefix_append _ _, List.prefix_rfl⟩
    · exact .refl x
  · rw [field?, hfields]
    exact hf
  · have hne : id ≠ ⟨p.methodSlots.size⟩ := by
      rintro rfl
      exact Nat.lt_irrefl _ hid
    rw [method?_addMethod, if_neg hne]
  · rw [stubFile?, fileByPath?, hfiles]
    exact hf
  · rw [file?, hfiles] at hf
    simp [file?, hf] at hnone
  · simp [hclass, hnone] at hx
  · rw [field?, hfields] at hf
    simp [field?, hf] at hnone
  · rw [method?_addMethod] at hx
    split at hx
    · cases hx
      refine ⟨⟨hstand.body_eq, hstand.result_isSome, hstand.throws_eq, hstand.modifiers_eq,
        hstand.annotations_eq, hstand.innerAnnotations_eq⟩, owner,
        { c with methods := c.methods ++ [⟨p.methodSlots.size⟩] }, howner, ?_, hfile⟩
      simp [hclass, hc, howner]
    · exact absurd (index_lt_of_method? hx) hnew

theorem Adding.grows (h : p.Adding q) : p.Grows q := by
  cases h with
  | node => exact p.grows_freshNode
  | file hnone => exact grows_addFile hnone
  | standInClass hstand _ _ _ hfile => exact grows_addClass hstand hfile
  | standInField hstand howner _ hknown => exact grows_addField hstand howner hknown
  | standInMethod hstand _ howner hclass hfile => exact grows_addMethod hstand howner hclass hfile

theorem grows_modifyMethod {id : MethodId} {m : Method} (hm : p.method? id = some m)
    (hbody : m.body.isSome = true) (body : Stmt) :
    p.Grows (p.modifyMethod id fun m => { m with body := some body }) := by
  have hmethod : ∀ other, (p.modifyMethod id fun m => { m with body := some body }).method? other =
      (p.method? other).map fun x => if id = other then { x with body := some body } else x :=
    fun other => p.method?_modifyMethod id other _
  have hsize : (p.modifyMethod id fun m => { m with body := some body }).methodSlots.size =
      p.methodSlots.size := by
    simp [modifyMethod]
  have h := Grows.refl p
  refine ⟨h.file, h.type, h.field, fun {other} _ => ?_, Nat.le_of_eq hsize.symm, h.stubFile,
    h.newFile, h.newType, h.newField, fun {other x} hx hnew => ?_⟩
  · rw [hmethod, Option.map_map]
    cases hother : p.method? other with
    | none => rfl
    | some x =>
      rw [Option.map_some, Option.map_some, Function.comp_apply]
      split
      · rename_i heq
        subst heq
        obtain rfl := Option.some.inj (hm.symm.trans hother)
        obtain ⟨old, hold⟩ := Option.isSome_iff_exists.mp hbody
        simp [Method.outline, hold]
      · rfl
  · rw [hmethod] at hx
    obtain ⟨old, hold, -⟩ := Option.map_eq_some_iff.mp hx
    exact absurd (index_lt_of_method? hold) hnew

theorem Resolving.grows (h : p.Resolving q) : p.Grows q := by
  cases h with
  | adding h => exact h.grows
  | body hm hbody body => exact grows_modifyMethod hm hbody body

/-! ## Whole runs -/

theorem Adds.grows (h : p.Adds q) : p.Grows q := by
  induction h with
  | refl => exact .refl p
  | tail _ hstep ih => exact ih.trans hstep.grows

theorem Resolves.grows (h : p.Resolves q) : p.Grows q := by
  induction h with
  | refl => exact .refl p
  | tail _ hstep ih => exact ih.trans hstep.grows

theorem Adding.method? (h : p.Adding q) {id : MethodId} (hid : p.HasGiven id) :
    q.method? id = p.method? id := by
  cases h with
  | node => rfl
  | file _ => rfl
  | standInClass =>
    rw [Program.method?, addClass, pushClass, bump, methodSlots_linkClass, Program.method?]
  | standInField => rfl
  | standInMethod =>
    have hne : id ≠ ⟨p.methodSlots.size⟩ := by
      rintro rfl
      exact Nat.lt_irrefl _ hid
    rw [method?_addMethod, if_neg hne]

theorem Adds.method? (h : p.Adds q) {id : MethodId} (hid : p.HasGiven id) :
    q.method? id = p.method? id := by
  induction h with
  | refl => rfl
  | tail hrest hstep ih =>
    have hslots := (Adds.grows hrest).slots
    rw [hstep.method? (Nat.lt_of_lt_of_le hid hslots), ih]

end Program

end KernelLint
