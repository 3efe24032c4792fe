import KernelLint.Proofs.Resolve.Found
import KernelLint.Proofs.Resolve.Meaning

/-!
# Answers that last

A search that is repeated later in a resolution finds what it found before, and finds nothing where
it found nothing, as long as the stand-ins made in the meantime keep out of its way
(`Program.Quiet`). What was found comes before all that is new, and a stand-in for a field is made
only where there was none of its name. For what was not found, the conditions say where stand-ins
must not be.
-/

namespace KernelLint

namespace Program

variable {p q r : Program}

/-! ## Steps keep programs grounded -/

theorem exists_file?_of_stubFile? {id : FileId} (h : p.stubFile? = some id) :
    id.index < p.files.size := by
  obtain ⟨f, hf, rfl⟩ := Option.map_eq_some_iff.mp h
  obtain ⟨i, hi⟩ := List.mem_iff_getElem?.mp (List.mem_of_find?_eq_some hf)
  rw [Array.getElem?_toList] at hi
  rw [p.files_numbered i f hi]
  exact (Array.getElem?_eq_some_iff.mp hi).1

theorem Grounded.adding (h : p.Grounded) (hstep : p.Adding q) : q.Grounded := by
  cases hstep with
  | node => exact h.freshNode
  | file _ => exact h.addFile ..
  | standInClass hstand _ hfields _ hfile =>
    refine h.addClass
      ⟨by simp [hstand.outer_eq], exists_file?_of_stubFile? hfile, by simp [hfields],
        .inr hstand.dotted⟩
  | standInField _ howner _ _ => exact h.addField (index_lt_of_class? howner)
  | standInMethod _ _ howner hclass hfile =>
    refine h.addMethod ⟨fun o ho => ?_, ?_⟩
    · rw [howner] at ho
      cases ho
      exact index_lt_of_class? hclass
    · rw [hfile]
      exact (h.class? hclass).file

theorem Grounded.resolves (h : p.Grounded) (hsteps : p.Resolves q) : q.Grounded := by
  induction hsteps with
  | refl => exact h
  | tail _ hstep ih =>
    cases hstep with
    | adding hstep => exact ih.adding hstep
    | body _ _ body => exact ih.modifyMethod _ fun _ => ⟨rfl, rfl⟩

/-! ## Classes -/

theorem Grows.findClass?_eq_none (h : r.Grows q) {name : String} (hnone : r.findClass? name = none)
    (hundotted : Text.isDotted name = false) : q.findClass? name = none := by
  cases hfound : q.findClass? name with
  | none => rfl
  | some c =>
    have hhas : q.hasClass name = true := by simp [hasClass, hfound]
    have hhas' : r.hasClass name = false := by simp [hasClass, hnone]
    obtain ⟨id, c, hc, hnew, rfl⟩ := h.extends.new_of_hasClass hhas hhas'
    have hdotted := (h.newType hc hnew).1.dotted
    rw [hundotted] at hdotted
    cases hdotted

theorem Grows.new_of_findClass? (h : r.Grows q) {name : String} {c : TypeDecl}
    (hfound : q.findClass? name = some c) (hnone : r.findClass? name = none) :
    r.class? c.id = none := by
  cases hold : r.class? c.id with
  | none => rfl
  | some d =>
    obtain ⟨hc, hqualified⟩ := class?_of_findClass? hfound
    obtain ⟨d', hd', hgrows⟩ := h.type hold
    obtain rfl := Option.some.inj (hd'.symm.trans hc)
    have hhas : r.hasClass name = true :=
      hasClass_iff.mpr ⟨_, d, hold, hgrows.qualifiedName_eq.symm.trans hqualified⟩
    simp [hasClass, hnone] at hhas

theorem findClass?_addClass (p : Program) {c : TypeDecl}
    (hnone : p.findClass? c.qualifiedName = none) :
    (p.addClass c).2.findClass? c.qualifiedName = some { c with id := ⟨p.classes.size⟩ } := by
  refine findClass?_eq_some_iff.mpr ⟨?_, rfl, fun id d hlt hd hname => ?_⟩
  · rw [class?_addClass]
    exact if_pos rfl
  · have hne : id ≠ ⟨p.classes.size⟩ := by
      rintro rfl
      exact Nat.lt_irrefl _ hlt
    rw [class?_addClass, if_neg hne] at hd
    obtain ⟨x, hx, rfl⟩ := Option.map_eq_some_iff.mp hd
    have hhas : p.hasClass c.qualifiedName = true := by
      refine hasClass_iff.mpr ⟨id, x, hx, ?_⟩
      rw [← hname]
      split <;> rfl
    simp [hasClass, hnone] at hhas

theorem findClass?_stubClass (p : Program) (name : String) :
    ∃ c, (p.stubClass name).2.findClass? name = some c ∧ c.id = (p.stubClass name).1 := by
  unfold stubClass
  split
  · rename_i c hfound
    exact ⟨c, hfound, rfl⟩
  · rename_i hnone
    have hnone' : p.stubFile.2.findClass? name = none := by
      rw [← hnone]
      unfold stubFile
      split <;> rfl
    let c : TypeDecl := { name := Text.lastSegment name, qualifiedName := name, file := p.stubFile.1
                          modifiers := { isPublic := true } }
    exact ⟨_, @findClass?_addClass p.stubFile.2 c hnone', rfl⟩

theorem stubClass_again (p : Program) (name : String) (h : (p.stubClass name).2.Grows q) :
    q.stubClass name = ((p.stubClass name).1, q) := by
  obtain ⟨c, hc, hid⟩ := p.findClass?_stubClass name
  obtain ⟨c', hc', hgrows⟩ := h.findClass? hc
  rw [← hid, ← hgrows.id_eq]
  simp only [stubClass, hc']

theorem classByName_again (p : Program) (name : String) (h : (p.classByName name).2.Grows q) :
    q.classByName name = ((p.classByName name).1, q) := by
  unfold classByName at h ⊢
  cases hfound : p.findClass? name with
  | some c =>
    rw [hfound] at h
    obtain ⟨c', hc', hgrows⟩ := h.findClass? hfound
    simp only [hc', hgrows.id_eq]
  | none =>
    simp only [hfound] at h ⊢
    cases hdotted : Text.isDotted name with
    | true =>
      simp only [hdotted, if_true] at h ⊢
      obtain ⟨c, hc, hid⟩ := p.findClass?_stubClass name
      obtain ⟨c', hc', hgrows⟩ := h.findClass? hc
      simp only [hc', hgrows.id_eq, hid]
    | false =>
      simp only [hdotted, Bool.false_eq_true, if_false] at h ⊢
      simp only [h.findClass?_eq_none hfound hdotted]

theorem Grows.superName (h : r.Grows q) {id : ClassId} {c : TypeDecl} (hc : r.class? id = some c) :
    (q.class? id).bind (·.superName) = (r.class? id).bind (·.superName) := by
  obtain ⟨c', hc', hgrows⟩ := h.type hc
  rw [hc, hc', Option.bind_some, Option.bind_some, hgrows.superName_eq]

theorem exists_class?_of_superClass? {id superId : ClassId} (h : p.superClass? id = some superId) :
    ∃ c, p.class? superId = some c := by
  obtain ⟨c, hfound, rfl⟩ := Option.map_eq_some_iff.mp h
  obtain ⟨name, -, hfound⟩ := Option.bind_eq_some_iff.mp hfound
  exact ⟨c, (class?_of_findClass? hfound).1⟩

theorem Grows.superClass? (h : r.Grows q) {id superId : ClassId}
    (hsuper : r.superClass? id = some superId) :
    q.superClass? id = some superId := by
  obtain ⟨c, hfound, rfl⟩ := Option.map_eq_some_iff.mp hsuper
  obtain ⟨name, hname, hfound⟩ := Option.bind_eq_some_iff.mp hfound
  obtain ⟨sub, hsub, -⟩ := Option.bind_eq_some_iff.mp hname
  obtain ⟨c', hc', hgrows⟩ := h.findClass? hfound
  rw [Program.superClass?, h.superName hsub, hname, Option.bind_some, hc', Option.map_some,
    hgrows.id_eq]

theorem Grows.new_of_superClass? (h : r.Grows q) {id superId : ClassId}
    (hsuper : q.superClass? id = some superId) (hnone : r.superClass? id = none) :
    r.class? superId = none := by
  obtain ⟨c, hfound, rfl⟩ := Option.map_eq_some_iff.mp hsuper
  obtain ⟨name, hname, hfound⟩ := Option.bind_eq_some_iff.mp hfound
  refine h.new_of_findClass? hfound ?_
  obtain ⟨sub, hsub, hsubName⟩ := Option.bind_eq_some_iff.mp hname
  cases hsubOld : r.class? id with
  | none =>
    rw [(h.newType hsub hsubOld).1.superName_eq] at hsubName
    cases hsubName
  | some old =>
    rw [Program.superClass?, ← h.superName hsubOld, hname, Option.bind_some,
      Option.map_eq_none_iff] at hnone
    exact hnone

/-! ## Fields -/

theorem ownField?_congr {id : ClassId} (name : String)
    (hlist : (q.class? id).map (·.fields) = (p.class? id).map (·.fields))
    (hfield : ∀ c, p.class? id = some c → ∀ f ∈ c.fields, q.field? f = p.field? f) :
    q.ownField? id name = p.ownField? id name := by
  unfold ownField?
  cases hc : p.class? id with
  | none =>
    rw [hc, Option.map_none, Option.map_eq_none_iff] at hlist
    rw [hlist]
  | some c =>
    rw [hc, Option.map_some] at hlist
    obtain ⟨c', hc', hfields⟩ := Option.map_eq_some_iff.mp hlist
    rw [hc']
    dsimp only
    rw [hfields, List.filterMap_congr (hfield c hc)]

theorem field?_addField_of_listed (hp : p.Grounded) (f : Field) {id : ClassId} {c : TypeDecl}
    (hc : p.class? id = some c) : ∀ x ∈ c.fields, (p.addField f).2.field? x = p.field? x := by
  intro x hx
  have hlt := (hp.class? hc).listed x hx
  have hne : x ≠ ⟨p.fields.size⟩ := by
    rintro rfl
    exact Nat.lt_irrefl _ hlt
  rw [field?_addField, if_neg hne]

theorem ownField?_addField (hp : p.Grounded) {f : Field} {id : ClassId} {name : String}
    (hother : ¬ (id = f.owner ∧ name = f.name)) :
    (p.addField f).2.ownField? id name = p.ownField? id name := by
  have hfield : ∀ c, p.class? id = some c →
      ∀ x ∈ c.fields, (p.addField f).2.field? x = p.field? x :=
    fun c hc => field?_addField_of_listed hp f hc
  by_cases howner : f.owner = id
  · have hname : f.name ≠ name := fun h => hother ⟨howner.symm, h.symm⟩
    unfold ownField?
    rw [class?_addField]
    cases hc : p.class? id with
    | none => rfl
    | some c =>
      simp only [Option.map_some, howner, if_true, List.filterMap_append, List.filter_append]
      rw [List.filterMap_congr (hfield c hc)]
      simp [field?_addField, hname]
  · refine ownField?_congr name ?_ hfield
    rw [class?_addField]
    simp [howner]

theorem ownField?_addField_self (p : Program) {f : Field} {c : TypeDecl}
    (hc : p.class? f.owner = some c) :
    (p.addField f).2.ownField? f.owner f.name = some ⟨p.fields.size⟩ := by
  have hclass : (p.addField f).2.class? f.owner =
      some { c with fields := c.fields ++ [⟨p.fields.size⟩] } := by
    rw [class?_addField, hc, Option.map_some, if_pos rfl]
  simp [ownField?, hclass, List.filterMap_append, field?_addField]

theorem ownField?_addClass (p : Program) {c : TypeDecl} (hfields : c.fields = []) (id : ClassId)
    (name : String) :
    (p.addClass c).2.ownField? id name = p.ownField? id name := by
  have hfield : ∀ x, (p.addClass c).2.field? x = p.field? x := by
    intro x
    simp [Program.field?, addClass, pushClass, bump]
  by_cases hnew : id = ⟨p.classes.size⟩
  · unfold ownField?
    rw [class?_addClass, if_pos hnew, hnew, class?_classes_size]
    simp [hfields]
  · refine ownField?_congr name ?_ fun _ _ x _ => hfield x
    rw [class?_addClass, if_neg hnew, Option.map_map]
    congr 1
    funext x
    rw [Function.comp_apply]
    split <;> rfl

theorem ownField?_addMethod (p : Program) (m : Method) (id : ClassId) (name : String) :
    (p.addMethod m).2.ownField? id name = p.ownField? id name := by
  refine ownField?_congr name ?_ fun _ _ x _ => congrArg (·[x.index]?) (p.fields_relinkMethod m _)
  rw [class?_addMethod, Option.map_map]
  congr 1
  funext x
  rw [Function.comp_apply]
  split <;> rfl

/-- A step changes what a class declares only by a new field, of a name that was not to be found in
it. -/
theorem Resolving.ownField? (hp : p.Grounded) (h : p.Resolving q) :
    (∀ id name, q.ownField? id name = p.ownField? id name) ∨
      ∃ fid f, q.field? fid = some f ∧ p.field? fid = none ∧ p.findField? f.owner f.name = none ∧
        ∀ id name, ¬ (id = f.owner ∧ name = f.name) →
          q.ownField? id name = p.ownField? id name := by
  cases h with
  | body _ _ _ => exact .inl fun _ _ => rfl
  | adding h =>
    cases h with
    | node => exact .inl fun _ _ => rfl
    | file _ => exact .inl fun _ _ => rfl
    | standInClass _ _ hfields _ _ => exact .inl (p.ownField?_addClass hfields)
    | @standInField f c hstand howner hnone hknown =>
      refine .inr ⟨⟨p.fields.size⟩, { f with id := ⟨p.fields.size⟩ }, ?_,
        by simp [Program.field?], hnone, ?_⟩
      · exact (field?_addField ..).trans (if_pos rfl)
      · exact fun id name hother => ownField?_addField hp hother
    | @standInMethod m owner c _ _ _ _ _ => exact .inl (p.ownField?_addMethod m)

theorem findFieldUpTo_mono {name : String} {n n' : Nat} {id : ClassId} {field : FieldId}
    (h : p.findFieldUpTo name n id = some field) (hle : n ≤ n') :
    p.findFieldUpTo name n' id = some field := by
  induction n generalizing n' id with
  | zero => cases h
  | succ n ih =>
    obtain ⟨n', rfl⟩ : ∃ k, n' = k + 1 := ⟨n' - 1, by omega⟩
    rw [findFieldUpTo] at h ⊢
    cases hown : p.ownField? id name with
    | some own =>
      rw [hown] at h
      exact h
    | none =>
      rw [hown] at h
      obtain ⟨superId, hsuper, hfound⟩ := Option.bind_eq_some_iff.mp h
      rw [hsuper]
      exact ih hfound (by omega)

theorem Resolving.findFieldUpTo (hp : p.Grounded) (h : p.Resolving q) {name : String} {n : Nat}
    {id : ClassId} {field : FieldId} (hn : n ≤ chainLimit)
    (hfound : p.findFieldUpTo name n id = some field) :
    q.findFieldUpTo name n id = some field := by
  induction n generalizing id with
  | zero => cases hfound
  | succ n ih =>
    have hown : q.ownField? id name = p.ownField? id name := by
      rcases Resolving.ownField? hp h with hsame | ⟨fid, f, -, -, hnone, hsame⟩
      · exact hsame id name
      · refine hsame id name ?_
        rintro ⟨rfl, rfl⟩
        have hsome := findFieldUpTo_mono hfound hn
        rw [show p.findFieldUpTo f.name chainLimit f.owner = none from hnone] at hsome
        cases hsome
    rw [Program.findFieldUpTo] at hfound ⊢
    rw [hown]
    cases hown' : p.ownField? id name with
    | some own =>
      rw [hown'] at hfound
      exact hfound
    | none =>
      rw [hown'] at hfound
      obtain ⟨superId, hsuper, hlater⟩ := Option.bind_eq_some_iff.mp hfound
      rw [h.grows.superClass? hsuper]
      exact ih (by omega) hlater

/-- **A field that was found is found again.** -/
theorem Resolves.findField? (hp : p.Grounded) (h : p.Resolves q) {id : ClassId} {name : String}
    {field : FieldId} (hfound : p.findField? id name = some field) :
    q.findField? id name = some field := by
  induction h with
  | refl => exact hfound
  | tail hsteps hstep ih =>
      exact Resolving.findFieldUpTo (hp.resolves hsteps) hstep (Nat.le_refl _) ih

/-! ## Stand-ins that keep out of the way -/

/-- The classes of the second program that are not in the first one. -/
def newClasses (p q : Program) : List TypeDecl := q.classes.toList.drop p.classes.size

/-- The fields of the second program that are not in the first one. -/
def newFields (p q : Program) : List Field := q.fields.toList.drop p.fields.size

theorem mem_drop_iff {α : Type} {xs : Array α} {n : Nat} {x : α} :
    x ∈ xs.toList.drop n ↔ ∃ i, xs[i]? = some x ∧ n ≤ i := by
  simp only [List.mem_iff_getElem?, List.getElem?_drop, Array.getElem?_toList]
  constructor
  · rintro ⟨i, hi⟩
    exact ⟨n + i, hi, Nat.le_add_right n i⟩
  · rintro ⟨i, hi, hle⟩
    exact ⟨i - n, by rwa [Nat.add_sub_cancel' hle]⟩

theorem mem_newClasses {c : TypeDecl} :
    c ∈ p.newClasses q ↔ ∃ id, q.class? id = some c ∧ p.class? id = none := by
  rw [newClasses, mem_drop_iff]
  constructor
  · rintro ⟨i, hi, hle⟩
    exact ⟨⟨i⟩, hi, Array.getElem?_eq_none hle⟩
  · rintro ⟨id, hc, hnone⟩
    exact ⟨id.index, hc, Array.getElem?_eq_none_iff.mp hnone⟩

theorem mem_newFields {f : Field} : f ∈ p.newFields q ↔ ∃ id, q.field? id = some f ∧
    p.field? id = none := by
  rw [newFields, mem_drop_iff]
  constructor
  · rintro ⟨i, hi, hle⟩
    exact ⟨⟨i⟩, hi, Array.getElem?_eq_none hle⟩
  · rintro ⟨id, hf, hnone⟩
    exact ⟨id.index, hf, Array.getElem?_eq_none_iff.mp hnone⟩

/-- The class that is reached over `n` extensions. -/
def ancestor? (p : Program) : Nat → ClassId → Option ClassId
  | 0, id => some id
  | n + 1, id => (p.superClass? id).bind (p.ancestor? n)

/-- What is new in the second program keeps out of the way of searches for methods: new methods are
in library classes only, and no search ends one class before a new one. -/
structure Quiet (p q : Program) : Prop where
  methods : ∀ {id m owner}, q.method? id = some m → ¬ p.HasGiven id → m.owner = some owner →
    q.isLibraryClass owner = true
  chains : ∀ {id last superId}, q.ancestor? (chainLimit - 1) id = some last →
    q.superClass? last = some superId →
    (p.class? superId).isSome = true

theorem Quiet.later (h : Quiet p q) (hgrows : p.Grows r) : Quiet r q where
  methods := fun hm hnew => h.methods hm fun hgiven => hnew (Nat.lt_of_lt_of_le hgiven hgrows.slots)
  chains := by
    intro id last superId hlast hsuper
    obtain ⟨c, hc⟩ := Option.isSome_iff_exists.mp (h.chains hlast hsuper)
    obtain ⟨c', hc', -⟩ := hgrows.type hc
    simp [hc']

theorem Resolves.ownField?_eq_none (hr : r.Grounded) (h : r.Resolves q) {id : ClassId}
    {name : String} (hnone : r.ownField? id name = none)
    (hnew : ∀ fid f, q.field? fid = some f → r.field? fid = none →
      ¬ (id = f.owner ∧ name = f.name)) :
    q.ownField? id name = none := by
  induction h with
  | refl => exact hnone
  | tail hsteps hstep ih =>
    have hmiddle := ih fun fid f hf => hnew fid f (hstep.grows.field hf)
    rcases hstep.ownField? (hr.resolves hsteps) with hsame | ⟨fid, f, hf, hfnone, -, hsame⟩
    · rw [hsame, hmiddle]
    · have hrnone : r.field? fid = none := by
        cases hold : r.field? fid with
        | none => rfl
        | some g => simp [(Resolves.grows hsteps).field hold] at hfnone
      rw [hsame _ _ (hnew fid f hf hrnone), hmiddle]

/-- **A field that was not found is not found again**, if neither the class itself nor one that is
extended gets one of the name. -/
theorem Resolves.findFieldUpTo_eq_none (hr : r.Grounded) (h : r.Resolves q) {name : String}
    {n : Nat} {id : ClassId} (hnone : r.findFieldUpTo name n id = none)
    (hextended : ∀ fid f, q.field? fid = some f → r.field? fid = none → f.name = name →
      ∀ sub, q.superClass? sub ≠ some f.owner)
    (hnew : ∀ fid f, q.field? fid = some f → r.field? fid = none →
      ¬ (id = f.owner ∧ name = f.name)) :
    q.findFieldUpTo name n id = none := by
  induction n generalizing id with
  | zero => rfl
  | succ n ih =>
    have hown : r.ownField? id name = none := by
      cases hown : r.ownField? id name with
      | none => rfl
      | some field => simp [Program.findFieldUpTo, hown] at hnone
    have hsuperNone : ∀ superId, r.superClass? id = some superId →
        r.findFieldUpTo name n superId = none := by
      intro superId hsuper
      simpa [Program.findFieldUpTo, hown, hsuper] using hnone
    rw [Program.findFieldUpTo, h.ownField?_eq_none hr hown hnew]
    cases hsuper : q.superClass? id with
    | none => rfl
    | some superId =>
      refine ih ?_ fun fid f hf hfnone hsame =>
        hextended fid f hf hfnone hsame.2.symm id (hsame.1 ▸ hsuper)
      cases hold : r.superClass? id with
      | some old =>
        obtain rfl := Option.some.inj ((h.grows.superClass? hold).symm.trans hsuper)
        exact hsuperNone old hold
      | none =>
        -- The class extends one that was not there before, and that one had no fields then.
        have hnew := h.grows.new_of_superClass? hsuper hold
        cases n with
        | zero => rfl
        | succ n => simp [Program.findFieldUpTo, Program.ownField?, Program.superClass?, hnew]

/-! ## Methods -/

theorem Grows.methods (h : r.Grows q) : ∃ fresh : List Method,
    q.methods.map Method.outline = (r.methods ++ fresh).map Method.outline ∧
      ∀ m ∈ fresh, q.method? m.id = some m ∧ ¬ r.HasGiven m.id := by
  let size := r.methodSlots.size
  have hslots : (q.methodSlots.toList.take size).map (Option.map Method.outline) =
      r.methodSlots.toList.map (Option.map Method.outline) := by
    refine List.ext_getElem? fun i => ?_
    rw [List.getElem?_map, List.getElem?_map, List.getElem?_take, Array.getElem?_toList,
      Array.getElem?_toList]
    by_cases hi : i < size
    · have hsame := h.method (show r.HasGiven ⟨i⟩ from hi)
      have hiq : i < q.methodSlots.size := Nat.lt_of_lt_of_le hi h.slots
      rw [if_pos hi, Array.getElem?_eq_getElem hi, Array.getElem?_eq_getElem hiq, Option.map_some,
        Option.map_some]
      simpa [method?, Array.getElem?_eq_getElem hi, Array.getElem?_eq_getElem hiq] using hsame
    · rw [if_neg hi, Array.getElem?_eq_none (by omega)]
  have hmap : ∀ slots : List (Option Method), (slots.filterMap id).map Method.outline =
      (slots.map (Option.map Method.outline)).filterMap id := by
    intro slots
    rw [List.map_filterMap, List.filterMap_map]
    rfl
  refine ⟨(q.methodSlots.toList.drop size).filterMap id, ?_, fun m hm => ?_⟩
  · rw [List.map_append, Program.methods, Program.methods, hmap r.methodSlots.toList, ← hslots,
      ← hmap, ← List.map_append, ← List.filterMap_append, List.take_append_drop]
  · obtain ⟨slot, hslot, rfl⟩ := List.mem_filterMap.mp hm
    obtain ⟨j, hj⟩ := List.mem_iff_getElem?.mp hslot
    rw [List.getElem?_drop, Array.getElem?_toList] at hj
    have hid := q.slots_numbered _ _ hj m rfl
    rw [hid]
    refine ⟨by simp [method?, hj], fun hlt => ?_⟩
    have : size + j < size := hlt
    omega

theorem Grows.methodsNamed (h : r.Grows q) (owner : ClassId) (name : String) : ∃ fresh :
    List Method,
    (q.methodsNamed owner name).map Method.outline =
      (r.methodsNamed owner name ++ fresh).map Method.outline ∧
      ∀ m ∈ fresh, m ∈ q.methodsNamed owner name ∧ ¬ r.HasGiven m.id := by
  obtain ⟨fresh, hsame, hfresh⟩ := h.methods
  let isNamed (m : Method) : Bool := m.owner = some owner && m.name = name
  refine ⟨fresh.filter isNamed, ?_, fun m hm => ?_⟩
  · have hfilter : ∀ ms : List Method, (ms.filter isNamed).map Method.outline =
        (ms.map Method.outline).filter isNamed := by
      intro ms
      rw [List.filter_map]
      rfl
    rw [Program.methodsNamed, Program.methodsNamed, ← List.filter_append]
    exact (hfilter _).trans ((congrArg _ hsame).trans (hfilter _).symm)
  · obtain ⟨hmem, hnamed⟩ := List.mem_filter.mp hm
    obtain ⟨hlive, hnew⟩ := hfresh m hmem
    simp only [isNamed, Bool.and_eq_true, decide_eq_true_eq] at hnamed
    exact ⟨mem_methodsNamed.mpr ⟨hlive, hnamed⟩, hnew⟩

theorem find?_outline {f : Method → Bool} (hf : ∀ m, f m.outline = f m) {ms ms' : List Method}
    (h : ms.map Method.outline = ms'.map Method.outline) :
    (ms.find? f).map (·.id) = (ms'.find? f).map (·.id) := by
  have houtline : ∀ ms : List Method, (ms.find? f).map (·.id) =
      ((ms.map Method.outline).find? f).map (·.id) := by
    intro ms
    rw [List.find?_map, Option.map_map, show f ∘ Method.outline = f from funext hf]
    rfl
  rw [houtline ms, houtline ms', h]

theorem Grows.find?_methodsNamed (h : r.Grows q) {owner : ClassId} {name : String}
    {f : Method → Bool} (hf : ∀ m, f m.outline = f m) {m : Method}
    (hfound : (r.methodsNamed owner name).find? f = some m) :
    ∃ m', (q.methodsNamed owner name).find? f = some m' ∧ m'.id = m.id := by
  obtain ⟨fresh, hsame, -⟩ := h.methodsNamed owner name
  have hfind := find?_outline hf hsame
  rw [List.find?_append, hfound] at hfind
  exact Option.map_eq_some_iff.mp hfind

/-- No method of the class and name of this one takes that many arguments unless it does itself. -/
def BestFor (p : Program) (id : MethodId) (arity : Nat) : Prop :=
  ∀ m, p.method? id = some m → m.acceptsArity arity = false →
    ∀ x ∈ p.methods, x.owner = m.owner → x.name = m.name → x.acceptsArity arity = false

instance (p : Program) (id : MethodId) (arity : Nat) : Decidable (p.BestFor id arity) :=
  inferInstanceAs (Decidable (∀ m ∈ p.method? id, m.acceptsArity arity = false →
    ∀ x ∈ p.methods, x.owner = m.owner → x.name = m.name → x.acceptsArity arity = false))

theorem Grows.pickByArity (h : r.Grows q) {owner : ClassId} {name : String} {arity : Nat}
    {m : Method} (hpick : pickByArity (r.methodsNamed owner name) arity = some m)
    (hbest : q.BestFor m.id arity) :
    ∃ m', Program.pickByArity (q.methodsNamed owner name) arity = some m' ∧ m'.id = m.id := by
  unfold Program.pickByArity at hpick ⊢
  cases haccepts : (r.methodsNamed owner name).find? (·.acceptsArity arity) with
  | some x =>
    rw [haccepts] at hpick
    cases hpick
    obtain ⟨m', hm', hid⟩ := h.find?_methodsNamed (fun _ => rfl) haccepts
    exact ⟨m', by rw [hm']; rfl, hid⟩
  | none =>
    rw [haccepts] at hpick
    have hhead : (r.methodsNamed owner name).head? = some m := hpick
    obtain ⟨hlive, howner, hname⟩ := mem_methodsNamed.mp (List.mem_of_mem_head? hhead)
    obtain ⟨m', hm', hsame, -⟩ := h.method?_of_some hlive
    have hrefuses : m'.acceptsArity arity = false := by
      have := List.find?_eq_none.mp haccepts m (List.mem_of_mem_head? hhead)
      rw [hsame]
      simpa [Method.acceptsArity] using this
    have hnone : (q.methodsNamed owner name).find? (·.acceptsArity arity) = none := by
      refine List.find?_eq_none.mpr fun x hx => ?_
      obtain ⟨hxlive, hxowner, hxname⟩ := mem_methodsNamed.mp hx
      have howner' : x.owner = m'.owner := by rw [hsame, hxowner, howner]
      have hname' : x.name = m'.name := by rw [hsame, hxname, hname]
      simp [hbest m' hm' hrefuses x (mem_methods_of_method? hxlive) howner' hname']
    rw [hnone]
    have hhead' : (r.methodsNamed owner name).find? (fun _ => true) = some m := by
      rw [← hhead]
      cases r.methodsNamed owner name <;> rfl
    obtain ⟨x, hx, hid⟩ := h.find?_methodsNamed (fun _ => rfl) hhead'
    refine ⟨x, ?_, hid⟩
    rw [← hx]
    cases q.methodsNamed owner name <;> rfl

theorem acceptsArity_length (m : Method) :
    m.acceptsArity m.params.length = true := by simp [Method.acceptsArity]

theorem methodsNamed_addMethod (p : Program) {m : Method} {owner : ClassId}
    (howner : m.owner = some owner) :
    (p.addMethod m).2.methodsNamed owner m.name =
      p.methodsNamed owner m.name ++ [{ m with id := ⟨p.methodSlots.size⟩ }] := by
  simp [addMethod, pushMethod, bump, methodsNamed, methods, howner]

theorem stubParameters_spec (p : Program) (arity : Nat) :
    (p.stubParameters arity).1.length = arity ∧ (p.stubParameters arity).2.methods = p.methods := by
  refine stubParameters_induction (P := fun n found => found.1.length = n ∧
    found.2.methods = p.methods) p ⟨rfl, rfl⟩ ?_ arity
  intro n found h
  refine ⟨?_, h.2⟩
  simp [h.1]

theorem methodsNamed_addStubMethod (p : Program) {owner : ClassId} {c : TypeDecl}
    (howner : p.class? owner = some c) (name : String) (arity : Nat) : ∃ m : Method,
    (p.addStubMethod owner name arity).2.methodsNamed owner name =
      p.methodsNamed owner name ++ [m] ∧
      m.id = (p.addStubMethod owner name arity).1 ∧ m.params.length = arity := by
  obtain ⟨hlength, hmethods⟩ := p.stubParameters_spec arity
  have hsame : (p.stubParameters arity).2.freshNode.2.methodsNamed owner name =
      p.methodsNamed owner name :=
    congrArg (List.filter _) hmethods
  rw [← hsame]
  simp only [addStubMethod, howner]
  exact ⟨_, methodsNamed_addMethod _ rfl, rfl, hlength⟩

theorem stubMethod_again (p : Program) {owner : ClassId} {c : TypeDecl}
    (howner : p.class? owner = some c) {name : String} {arity : Nat}
    (h : (p.stubMethod owner name arity).2.Grows q) :
    q.stubMethod owner name arity = ((p.stubMethod owner name arity).1, q) := by
  have hagain : ∀ {r : Program} {m : Method}, r.Grows q →
      (r.methodsNamed owner name).find? (·.params.length = arity) = some m →
      q.stubMethod owner name arity = (m.id, q) := by
    intro r m hgrows hfound
    obtain ⟨m', hm', hid⟩ := hgrows.find?_methodsNamed (fun _ => rfl) hfound
    simp only [stubMethod, hm', hid]
  cases hfound : (p.methodsNamed owner name).find? (·.params.length = arity) with
  | some m =>
    simp only [stubMethod, hfound] at h ⊢
    exact hagain h hfound
  | none =>
    simp only [stubMethod, hfound] at h
    obtain ⟨m, hsame, hid, hlength⟩ := p.methodsNamed_addStubMethod howner name arity
    have hmade := hagain h (m := m) (by rw [hsame, List.find?_append, hfound]; simp [hlength])
    rw [hmade, hid]
    simp only [stubMethod, hfound]

theorem Grows.isLibraryClass (h : r.Grows q) (hr : r.Grounded) {id : ClassId} {c : TypeDecl}
    (hc : r.class? id = some c) : q.isLibraryClass id = r.isLibraryClass id := by
  obtain ⟨c', hc', hgrows⟩ := h.type hc
  obtain ⟨f, hf⟩ := exists_file?_of_lt (hr.class? hc).file
  obtain ⟨f', hf', hfgrows⟩ := h.file hf
  have horigin : f'.origin = f.origin := by rw [hfgrows.same]
  rw [Program.isLibraryClass, Program.isLibraryClass, hc, hc', Option.bind_some, Option.bind_some,
    hgrows.file_eq, hf, hf']
  simp [horigin]

theorem Quiet.methodsNamed (hquiet : r.Quiet q) (h : r.Grows q) (hr : r.Grounded) {id : ClassId}
    {c : TypeDecl} (hc : r.class? id = some c) (hforeign : r.isLibraryClass id = false)
    {name : String} (hnone : r.methodsNamed id name = []) : q.methodsNamed id name = [] := by
  obtain ⟨fresh, hsame, hfresh⟩ := h.methodsNamed id name
  rw [hnone, List.nil_append] at hsame
  have hempty : fresh = [] := by
    refine List.eq_nil_iff_forall_not_mem.mpr fun m hm => ?_
    obtain ⟨hmem, hnew⟩ := hfresh m hm
    obtain ⟨hlive, howner, -⟩ := mem_methodsNamed.mp hmem
    have hlibrary := hquiet.methods hlive hnew howner
    rw [h.isLibraryClass hr hc, hforeign] at hlibrary
    cases hlibrary
  rw [hempty] at hsame
  simpa using hsame

theorem pickByArity_eq_none {ms : List Method} {arity : Nat} :
    pickByArity ms arity = none ↔ ms = [] := by
  unfold pickByArity
  cases ms with
  | nil => simp
  | cons m rest => cases (m :: rest).find? (·.acceptsArity arity) <;> simp

theorem pickByArity_stubMethod (p : Program) {owner : ClassId} {c : TypeDecl}
    (howner : p.class? owner = some c) {name : String} (arity : Nat)
    (hnone : p.methodsNamed owner name = []) :
    ∃ m, pickByArity ((p.stubMethod owner name arity).2.methodsNamed owner name) arity = some m ∧
      m.id = (p.stubMethod owner name arity).1 := by
  obtain ⟨m, hsame, hid, hlength⟩ := p.methodsNamed_addStubMethod howner name arity
  simp only [stubMethod, hnone, List.find?_nil]
  rw [hsame, hnone]
  refine ⟨m, ?_, hid⟩
  have haccepts : m.acceptsArity arity = true := hlength ▸ acceptsArity_length m
  simp [pickByArity, haccepts]

theorem Grows.outsideSuperName?_eq_none (h : r.Grows q) {id : ClassId} {c : TypeDecl}
    (hc : r.class? id = some c) (hnone : r.outsideSuperName? id = none) :
    q.outsideSuperName? id = none := by
  rw [Program.outsideSuperName?, Option.filter_eq_none_iff] at hnone ⊢
  intro name hname hkept
  refine hnone name ((h.superName hc).symm.trans hname) ?_
  simp only [Bool.and_eq_true, Bool.not_eq_true'] at hkept ⊢
  refine ⟨?_, hkept.2⟩
  cases hhas : r.hasClass name with
  | false => rfl
  | true =>
    rw [h.extends.hasClass hhas] at hkept
    exact absurd hkept.1 (by simp)

theorem Grows.superClass?_eq_none (h : r.Grows q) {id : ClassId} {c : TypeDecl}
    (hc : r.class? id = some c) (hinside : r.outsideSuperName? id = none)
    (hnone : r.superClass? id = none) : q.superClass? id = none := by
  rw [Program.superClass?, h.superName hc]
  cases hname : (r.class? id).bind (·.superName) with
  | none => rfl
  | some name =>
    rw [Program.superClass?, hname, Option.bind_some, Option.map_eq_none_iff] at hnone
    rw [Program.outsideSuperName?, hname, Option.filter_eq_none_iff] at hinside
    have hundotted : Text.isDotted name = false := by
      simpa [hasClass, hnone] using hinside name rfl
    rw [Option.bind_some, h.findClass?_eq_none hnone hundotted, Option.map_none]

theorem superClass?_stubClass {id : ClassId} {superName : String}
    (hsuper : r.outsideSuperName? id = some superName) (h : (r.stubClass superName).2.Grows q) :
    q.superClass? id = some (r.stubClass superName).1 ∧
    r.class? (r.stubClass superName).1 = none := by
  have hdotted := dotted_of_outsideSuperName? hsuper
  have hgrows : r.Grows q := (r.adds_stubClass hdotted).grows.trans h
  obtain ⟨hname, hkept⟩ := Option.filter_eq_some_iff.mp hsuper
  obtain ⟨sub, hsub, -⟩ := Option.bind_eq_some_iff.mp hname
  have hunknown : r.findClass? superName = none := by
    simp only [hasClass, Bool.and_eq_true, Bool.not_eq_true', Option.isSome_eq_false_iff,
      Option.isNone_iff_eq_none] at hkept
    exact hkept.1
  obtain ⟨c, hc, hid⟩ := r.findClass?_stubClass superName
  obtain ⟨c', hc', hcgrows⟩ := h.findClass? hc
  have hfound : q.superClass? id = some (r.stubClass superName).1 := by
    rw [Program.superClass?, hgrows.superName hsub, hname, Option.bind_some, hc', Option.map_some,
      hcgrows.id_eq, hid]
  refine ⟨hfound, hgrows.new_of_superClass? hfound ?_⟩
  rw [Program.superClass?, hname, Option.bind_some, hunknown, Option.map_none]

theorem outsideSuperName?_of_superClass? {id superId : ClassId}
    (h : p.superClass? id = some superId) :
    p.outsideSuperName? id = none := by
  obtain ⟨c, hfound, -⟩ := Option.map_eq_some_iff.mp h
  obtain ⟨name, hname, hfound⟩ := Option.bind_eq_some_iff.mp hfound
  rw [outsideSuperName?, hname]
  simp [hasClass, hfound, Option.filter]

theorem methods_stubClass (p : Program) (name : String) :
    (p.stubClass name).2.methods = p.methods := by
  have hslots : (p.stubClass name).2.methodSlots = p.methodSlots := by
    unfold stubClass
    split
    · rfl
    · have hfile : p.stubFile.2.methodSlots = p.methodSlots := by
        unfold stubFile
        split <;> rfl
      exact (methodSlots_linkClass _ _ _).trans hfile
  rw [methods, methods, hslots]

section

variable {name : String} {arity n : Nat} {id : ClassId}

theorem findMethodUpTo_picked {m : Method}
    (hpick : pickByArity (p.methodsNamed id name) arity = some m) :
    findMethodUpTo name arity (n + 1) id p = (some m.id, p) := by
  rw [findMethodUpTo, hpick]

variable (hnone : p.methodsNamed id name = [])
include hnone

theorem findMethodUpTo_library (hlibrary : p.isLibraryClass id = true) :
    findMethodUpTo name arity (n + 1) id p =
    (some (p.stubMethod id name arity).1, (p.stubMethod id name arity).2) := by
  rw [findMethodUpTo, pickByArity_eq_none.mpr hnone]
  simp only [hlibrary, if_true]

theorem findMethodUpTo_outside (hlibrary : p.isLibraryClass id = false) {superName : String}
    (hsuper : p.outsideSuperName? id = some superName) : findMethodUpTo name arity (n + 1) id p =
      (some ((p.stubClass superName).2.stubMethod (p.stubClass superName).1 name arity).1,
        ((p.stubClass superName).2.stubMethod (p.stubClass superName).1 name arity).2) := by
  rw [findMethodUpTo, pickByArity_eq_none.mpr hnone]
  simp only [hlibrary, Bool.false_eq_true, if_false, hsuper]

theorem findMethodUpTo_next (hlibrary : p.isLibraryClass id = false)
    (hinside : p.outsideSuperName? id = none) {superId : ClassId}
    (hnext : p.superClass? id = some superId) :
    findMethodUpTo name arity (n + 1) id p = findMethodUpTo name arity n superId p := by
  rw [findMethodUpTo, pickByArity_eq_none.mpr hnone]
  simp only [hlibrary, Bool.false_eq_true, if_false, hinside, hnext]

theorem findMethodUpTo_last (hlibrary : p.isLibraryClass id = false)
    (hinside : p.outsideSuperName? id = none) (hlast : p.superClass? id = none) :
    findMethodUpTo name arity (n + 1) id p = (none, p) := by
  rw [findMethodUpTo, pickByArity_eq_none.mpr hnone]
  simp only [hlibrary, Bool.false_eq_true, if_false, hinside, hlast]

end

theorem Grounded.methodsNamed_eq_nil (hr : r.Grounded) {id : ClassId} (hnone : r.class? id = none)
    (name : String) :
    r.methodsNamed id name = [] := by
  refine List.filter_eq_nil_iff.mpr fun m hm hnamed => ?_
  simp only [Bool.and_eq_true, decide_eq_true_eq] at hnamed
  obtain ⟨c, hc⟩ := exists_class?_of_lt ((hr.method? (method?_of_mem_methods hm)).owner _ hnamed.1)
  rw [hnone] at hc
  cases hc

theorem methodsNamed_stubClass (p : Program) (className : String) (id : ClassId) (name : String) :
    (p.stubClass className).2.methodsNamed id name = p.methodsNamed id name := by
  rw [methodsNamed, p.methods_stubClass className]
  rfl

/-- **A method is found again along the chain of extended classes**, and none where there was
none. -/
theorem findMethodUpTo_again {name : String} {arity n : Nat} {id : ClassId} {c : TypeDecl}
    (hr : r.Grounded) (hquiet : r.Quiet q) (hc : r.class? id = some c)
    (h : (findMethodUpTo name arity n id r).2.Grows q)
    (hbest : ∀ m, (findMethodUpTo name arity n id r).1 = some m → q.BestFor m arity)
    (hchain : ∀ k last superId, n = k + 1 → q.ancestor? k id = some last →
      q.superClass? last = some superId →
      (r.class? superId).isSome = true) :
    findMethodUpTo name arity n id q = ((findMethodUpTo name arity n id r).1, q) := by
  have hgrows : r.Grows q := (adds_findMethodUpTo name arity n id r).grows.trans h
  have hfound : ∀ {x : Program} {owner m k}, x.Grows q →
    pickByArity (x.methodsNamed owner name) arity = some m →
      q.BestFor m.id arity → findMethodUpTo name arity (k + 1) owner q = (some m.id, q) := by
    intro x owner m k hx hpick hbest
    obtain ⟨m', hm', hid⟩ := hx.pickByArity hpick hbest
    rw [findMethodUpTo_picked hm', hid]
  induction n generalizing id c with
  | zero => rfl
  | succ n ih =>
    cases hpick : pickByArity (r.methodsNamed id name) arity with
    | some m =>
      rw [findMethodUpTo_picked hpick] at h hbest ⊢
      exact hfound h hpick (hbest _ rfl)
    | none =>
      have hempty := pickByArity_eq_none.mp hpick
      cases hlibrary : r.isLibraryClass id with
      | true =>
        rw [findMethodUpTo_library hempty hlibrary] at h hbest ⊢
        obtain ⟨m, hm, hid⟩ := r.pickByArity_stubMethod hc arity hempty
        rw [← hid]
        exact hfound h hm (hid ▸ hbest _ rfl)
      | false =>
        have hempty' := hquiet.methodsNamed hgrows hr hc hlibrary hempty
        have hlibrary' := (hgrows.isLibraryClass hr hc).trans hlibrary
        cases hsuper : r.outsideSuperName? id with
        | some superName =>
          -- The class that was made for the method is now the next one of the chain.
          rw [findMethodUpTo_outside hempty hlibrary hsuper] at h hbest ⊢
          obtain ⟨x, hx⟩ := Option.isSome_iff_exists.mp (r.class?_stubClass superName)
          have hlater := (adds_stubMethod _ hx name arity).grows.trans h
          obtain ⟨hnext, hnew⟩ := superClass?_stubClass hsuper hlater
          have hmade := (methodsNamed_stubClass r superName _ name).trans
            (hr.methodsNamed_eq_nil hnew name)
          obtain ⟨m, hm, hid⟩ := pickByArity_stubMethod _ hx arity hmade
          rw [findMethodUpTo_next hempty' hlibrary' (outsideSuperName?_of_superClass? hnext) hnext]
          cases n with
          | zero =>
            have hold := hchain 0 id _ rfl rfl hnext
            rw [hnew] at hold
            cases hold
          | succ n =>
            rw [← hid]
            exact hfound h hm (hid ▸ hbest _ rfl)
        | none =>
          have hinside := hgrows.outsideSuperName?_eq_none hc hsuper
          cases hnext : r.superClass? id with
          | none =>
            rw [findMethodUpTo_last hempty hlibrary hsuper hnext,
              findMethodUpTo_last hempty' hlibrary' hinside
                (hgrows.superClass?_eq_none hc hsuper hnext)]
          | some superId =>
            have hnext' := hgrows.superClass? hnext
            rw [findMethodUpTo_next hempty hlibrary hsuper hnext] at h hbest ⊢
            rw [findMethodUpTo_next hempty' hlibrary' hinside hnext']
            obtain ⟨x, hx⟩ := exists_class?_of_superClass? hnext
            refine ih hx h hbest fun k last next hk hlast =>
              hchain (k + 1) last next (by rw [hk]) ?_
            rw [ancestor?, hnext', Option.bind_some, hlast]

theorem findMethodUpTo_eq_self {name : String} {arity n : Nat} {id : ClassId}
    (h : (findMethodUpTo name arity n id p).1 = none) :
    (findMethodUpTo name arity n id p).2 = p := by
  induction n generalizing id with
  | zero => rfl
  | succ n ih =>
    rw [findMethodUpTo] at h ⊢
    split at h
    · cases h
    · split at h
      · cases h
      · split at h
        · cases h
        · rename_i hlibrary _ _
          rw [if_neg hlibrary]
          split at h
          · exact ih h
          · rfl

section

variable {name : String} {arity : Nat} (hr : r.Grounded) (hquiet : r.Quiet q)
include hr hquiet

theorem findMethodIn_again {id : ClassId} {c : TypeDecl} (hc : r.class? id = some c)
    (h : (r.findMethodIn id name arity).2.Grows q)
    (hbest : ∀ m, (r.findMethodIn id name arity).1 = some m → q.BestFor m arity) :
    q.findMethodIn id name arity = ((r.findMethodIn id name arity).1, q) := by
  refine findMethodUpTo_again hr hquiet hc h hbest fun k last superId hk hlast hsuper => ?_
  obtain rfl : k = chainLimit - 1 := by omega
  exact hquiet.chains hlast hsuper

theorem findMethodAmong_again {ids : List ClassId} (hids : ∀ id ∈ ids, ∃ c, r.class? id = some c)
    (h : (findMethodAmong name arity ids r).2.Grows q)
    (hbest : ∀ m, (findMethodAmong name arity ids r).1 = some m → q.BestFor m arity) :
    findMethodAmong name arity ids q = ((findMethodAmong name arity ids r).1, q) := by
  induction ids with
  | nil => rfl
  | cons id rest ih =>
    obtain ⟨⟨c, hc⟩, hrest⟩ := List.forall_mem_cons.mp hids
    rw [findMethodAmong] at h hbest ⊢
    cases hfound : r.findMethodIn id name arity with
    | mk found next =>
      cases found with
      | some m =>
        rw [hfound] at h hbest
        have hagain := findMethodIn_again hr hquiet hc (by rw [hfound]; exact h)
          (by rw [hfound]; exact hbest)
        rw [hfound] at hagain
        simp only [findMethodAmong, hagain, hfound]
      | none =>
        obtain rfl : next = r := by
          have hself := @findMethodUpTo_eq_self r name arity chainLimit id
            (congrArg Prod.fst hfound)
          exact (congrArg Prod.snd hfound).symm.trans hself
        rw [hfound] at h hbest
        have hgrows : next.Grows q := (adds_findMethodAmong name arity rest next).grows.trans h
        have hagain := findMethodIn_again hr hquiet hc (by rw [hfound]; exact hgrows)
          (by rw [hfound]; intro m hm; cases hm)
        rw [hfound] at hagain
        simp only [findMethodAmong, hagain, hfound]
        exact ih hrest h hbest

theorem staticImportMethod_again {file : FileId} (hfile : file.index < r.files.size)
    (h : (r.staticImportMethod file name arity).2.Grows q)
    (hbest : ∀ m, (r.staticImportMethod file name arity).1 = some m → q.BestFor m arity) :
    q.staticImportMethod file name arity = ((r.staticImportMethod file name arity).1, q) := by
  have hgrows : r.Grows q := (r.adds_staticImportMethod file name arity).grows.trans h
  obtain ⟨f, hf⟩ := exists_file?_of_lt hfile
  obtain ⟨f', hf', hfgrows⟩ := hgrows.file hf
  have himport : staticImportOwner? f' name = staticImportOwner? f name := by rw [hfgrows.same]; rfl
  unfold staticImportMethod at h hbest ⊢
  rw [hf, Option.bind_some] at h hbest ⊢
  rw [hf', Option.bind_some, himport]
  cases himported : staticImportOwner? f name with
  | none => rfl
  | some owner =>
    simp only [himported] at h hbest ⊢
    have hadds := r.adds_classByName owner
    cases hclass : r.classByName owner with
    | mk found next =>
      rw [hclass] at h hbest hadds
      have hagain : next.Grows q → q.classByName owner = (found, q) := by
        intro hnext
        have hagain := classByName_again r owner (by rw [hclass]; exact hnext)
        rw [hclass] at hagain
        exact hagain
      cases found with
      | none => rw [hagain h]
      | some id =>
        obtain ⟨c, hc⟩ := exists_class?_of_classByName (congrArg Prod.fst hclass)
        rw [hclass] at hc
        rw [hagain ((adds_findMethodUpTo ..).grows.trans h)]
        exact findMethodIn_again (hr.resolves hadds.resolves) (hquiet.later hadds.grows) hc h hbest

end

theorem objectMethod_again (p : Program) {name : String} {arity : Nat}
    (h : (p.objectMethod name arity).2.Grows q) :
    q.objectMethod name arity = ((p.objectMethod name arity).1, q) := by
  unfold objectMethod at h ⊢
  split at h
  · rename_i hobject
    obtain ⟨c, hc⟩ := Option.isSome_iff_exists.mp (p.class?_stubClass Library.objectClass)
    have hlater := (adds_stubMethod _ hc name arity).grows.trans h
    simp only [hobject, if_true, stubClass_again p _ hlater, stubMethod_again _ hc h]
  · rename_i hother
    simp only [hother, Bool.false_eq_true, if_false]

/-- **The constructor of a type stays the same**: no stand-in is one. -/
theorem Grows.findConstructor? (h : r.Grows q) (hr : r.Grounded) (type : ErasedType) (arity : Nat) :
    q.findConstructor? type arity = r.findConstructor? type arity := by
  have hsame : ∀ owner name, ((q.methodsNamed owner name).find? fun m => m.isConstructor &&
    m.acceptsArity arity).map
      (·.id) = ((r.methodsNamed owner name).find? fun m => m.isConstructor &&
        m.acceptsArity arity).map (·.id) := by
    intro owner name
    obtain ⟨fresh, hsame, hfresh⟩ := h.methodsNamed owner name
    have hnone : fresh.find? (fun m => m.isConstructor && m.acceptsArity arity) = none := by
      refine List.find?_eq_none.mpr fun m hm => ?_
      obtain ⟨hmem, hnew⟩ := hfresh m hm
      have hstand := (h.newMethod (mem_methodsNamed.mp hmem).1 hnew).1.result_isSome
      obtain ⟨result, hresult⟩ := Option.isSome_iff_exists.mp hstand
      simp [Method.isConstructor, hresult]
    rw [find?_outline (fun _ => rfl) hsame, List.find?_append, hnone, Option.or_none]
  unfold Program.findConstructor?
  cases hfound : r.findClass? type.name with
  | some c =>
    obtain ⟨c', hc', hgrows⟩ := h.findClass? hfound
    rw [hc', Option.bind_some, Option.bind_some, hsame, hgrows.id_eq, hgrows.name_eq]
  | none =>
    cases hnew : q.findClass? type.name with
    | none => rfl
    | some c =>
      rw [Option.bind_some, hsame, hr.methodsNamed_eq_nil (h.new_of_findClass? hnew hfound)]
      rfl

end Program

end KernelLint
