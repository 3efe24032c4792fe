import KernelLint.Proofs.Resolve.Traversal

/-!
# What searches find

Whatever a search for a class, a method, a constructor or a field answers is there and is what was
looked for, in the program that the search leaves. Stand-ins that a search makes on its way are no
exception.
-/

namespace KernelLint

namespace Program

variable {p : Program}

/-! ## Classes -/

theorem exists_class?_of_classByName {name : String} {id : ClassId}
    (h : (p.classByName name).1 = some id) :
    ∃ c, (p.classByName name).2.class? id = some c := by
  unfold classByName at h ⊢
  split at h
  · rename_i c hfound
    cases h
    exact ⟨c, (class?_of_findClass? hfound).1⟩
  · split at h
    · cases h
      rename_i hdotted
      simp only [hdotted, if_true]
      exact Option.isSome_iff_exists.mp (p.class?_stubClass name)
    · cases h

/-! ## Methods -/

/-- A live method of the name is found under the identity. -/
def HasNamed (p : Program) (id : MethodId) (name : String) :
    Prop := ∃ m, p.method? id = some m ∧ m.name = name

theorem HasNamed.grows {q : Program} {id : MethodId} {name : String} (h : p.HasNamed id name)
    (hgrows : p.Grows q) :
    q.HasNamed id name := by
  obtain ⟨m, hm, hname⟩ := h
  obtain ⟨m', hm', hsame, -⟩ := hgrows.method?_of_some hm
  refine ⟨m', hm', ?_⟩
  rw [hsame]
  exact hname

theorem mem_methodsNamed {owner : ClassId} {name : String} {m : Method} :
    m ∈ p.methodsNamed owner name ↔
      p.method? m.id = some m ∧ m.owner = some owner ∧ m.name = name := by
  simp only [methodsNamed, List.mem_filter, Bool.and_eq_true, decide_eq_true_eq]
  exact and_congr_left fun _ => ⟨method?_of_mem_methods, mem_methods_of_method?⟩

theorem mem_of_pickByArity {candidates : List Method} {arity : Nat} {m : Method}
    (h : pickByArity candidates arity = some m) : m ∈ candidates := by
  unfold pickByArity at h
  cases hfind : candidates.find? (·.acceptsArity arity) with
  | some x =>
    rw [hfind] at h
    cases h
    exact List.mem_of_find?_eq_some hfind
  | none =>
    rw [hfind] at h
    exact List.mem_of_mem_head? h

theorem method?_addMethod_self (p : Program) (m : Method) :
    (p.addMethod m).2.method? (p.addMethod m).1 = some { m with id := ⟨p.methodSlots.size⟩ } := by
  rw [method?_addMethod]
  exact if_pos rfl

theorem hasNamed_stubMethod (p : Program) (owner : ClassId) (name : String) (arity : Nat) :
    (p.stubMethod owner name arity).2.HasNamed (p.stubMethod owner name arity).1 name := by
  unfold stubMethod
  split
  · rename_i m hfound
    have hmem := mem_methodsNamed.mp (List.mem_of_find?_eq_some hfound)
    exact ⟨m, hmem.1, hmem.2.2⟩
  · exact ⟨_, method?_addMethod_self _ _, rfl⟩

/-- What a search for a method of a name answers is such a method. -/
structure Locates (name : String) (r : Option MethodId × Program) : Prop where
  hasNamed : ∀ id, r.1 = some id → r.2.HasNamed id name

theorem locates_stubMethod (p : Program) (owner : ClassId) (name : String) (arity : Nat) :
    Locates name (some (p.stubMethod owner name arity).1, (p.stubMethod owner name arity).2) := by
  refine ⟨fun id hid => ?_⟩
  cases hid
  exact p.hasNamed_stubMethod owner name arity

theorem locates_none (name : String) (p : Program) : Locates name (none, p) := ⟨nofun⟩

theorem locates_findMethodUpTo (name : String) (arity n : Nat) (id : ClassId) (p : Program) :
    Locates name (findMethodUpTo name arity n id p) := by
  induction n generalizing id with
  | zero => exact locates_none name p
  | succ n ih =>
    rw [findMethodUpTo]
    split
    · rename_i m hpick
      refine ⟨fun id hid => ?_⟩
      cases hid
      have hmem := mem_methodsNamed.mp (mem_of_pickByArity hpick)
      exact ⟨m, hmem.1, hmem.2.2⟩
    · split
      · exact locates_stubMethod ..
      · split
        · exact locates_stubMethod ..
        · split
          · exact ih _
          · exact locates_none name p

theorem locates_findMethodAmong (name : String) (arity : Nat) (ids : List ClassId) (p : Program) :
    Locates name (findMethodAmong name arity ids p) := by
  induction ids generalizing p with
  | nil => exact locates_none name p
  | cons id rest ih =>
    have hfirst : Locates name (p.findMethodIn id name arity) := locates_findMethodUpTo ..
    rw [findMethodAmong]
    split
    · rename_i heq
      rw [heq] at hfirst
      exact hfirst
    · exact ih _

theorem locates_objectMethod (p : Program) (name : String) (arity : Nat) :
    Locates name (p.objectMethod name arity) := by
  unfold objectMethod
  split
  · exact locates_stubMethod ..
  · exact locates_none name p

theorem locates_staticImportMethod (p : Program) (file : FileId) (name : String) (arity : Nat) :
    Locates name (p.staticImportMethod file name arity) := by
  unfold staticImportMethod
  split
  · exact locates_none name p
  · split
    · exact locates_none name _
    · exact locates_findMethodUpTo ..

theorem of_findConstructor? {type : ErasedType} {arity : Nat} {id : MethodId}
    (h : p.findConstructor? type arity = some id) :
    ∃ c m, p.findClass? type.name = some c ∧ p.method? id = some m ∧ m.owner = some c.id ∧
      m.name = c.name ∧
      m.isConstructor = true ∧ m.acceptsArity arity = true := by
  obtain ⟨c, hc, h⟩ := Option.bind_eq_some_iff.mp h
  obtain ⟨m, hfind, rfl⟩ := Option.map_eq_some_iff.mp h
  obtain ⟨hlive, howner, hname⟩ := mem_methodsNamed.mp (List.mem_of_find?_eq_some hfind)
  have hfits := List.find?_some hfind
  rw [Bool.and_eq_true] at hfits
  exact ⟨c, m, hc, hlive, howner, hname, hfits⟩

/-! ## Fields -/

theorem of_ownField? {id : ClassId} {name : String} {field : FieldId}
    (h : p.ownField? id name = some field) :
    ∃ f, p.field? field = some f ∧ f.name = name := by
  unfold ownField? at h
  split at h
  · rename_i c hc
    obtain ⟨f, hlast, rfl⟩ := Option.map_eq_some_iff.mp h
    have hmem := List.mem_filter.mp (List.mem_of_getLast? hlast)
    obtain ⟨given, -, hgiven⟩ := List.mem_filterMap.mp hmem.1
    refine ⟨f, ?_, by simpa using hmem.2⟩
    rw [p.fields_numbered given.index f hgiven]
    exact hgiven
  · cases h

theorem of_findFieldUpTo {name : String} {n : Nat} {id : ClassId} {field : FieldId}
    (h : p.findFieldUpTo name n id = some field) :
    ∃ f, p.field? field = some f ∧ f.name = name := by
  induction n generalizing id with
  | zero => cases h
  | succ n ih =>
    rw [findFieldUpTo] at h
    cases hown : p.ownField? id name with
    | some own =>
      rw [hown] at h
      cases h
      exact of_ownField? hown
    | none =>
      rw [hown] at h
      obtain ⟨superId, -, hsuper⟩ := Option.bind_eq_some_iff.mp h
      exact ih hsuper

theorem of_findField? {id : ClassId} {name : String} {field : FieldId}
    (h : p.findField? id name = some field) :
    ∃ f, p.field? field = some f ∧ f.name = name := of_findFieldUpTo h

theorem field?_addStubField (p : Program) (owner : ClassId) (name : String) (type : ErasedType) :
    ∃ f, (p.addStubField owner name type).2.field? (p.addStubField owner name type).1 = some f ∧
      f.name = name := by
  exact ⟨_, (field?_pushField _ _ _).trans (if_pos rfl), rfl⟩

end Program

/-! ## Names -/

namespace Resolve

/-- The program has what the name denotes: a field of that name or a class. -/
def Denotes (p : Program) (name : String) : Declaration → Prop
  | .field id => ∃ f, p.field? id = some f ∧ f.name = name
  | .type id => ∃ c, p.class? id = some c
  | .method _ | .parameter .. | .localVar _ => False

theorem Denotes.grows {p q : Program} {name : String} {d : Declaration} (h : Denotes p name d)
    (hgrows : p.Grows q) :
    Denotes q name d := by
  cases d with
  | field id =>
    obtain ⟨f, hf, hname⟩ := h
    exact ⟨f, hgrows.field hf, hname⟩
  | type id =>
    obtain ⟨c, hc⟩ := h
    obtain ⟨c', hc', -⟩ := hgrows.type hc
    exact ⟨c', hc'⟩
  | method id => exact h
  | parameter id index => exact h
  | localVar node => exact h

variable {p : Program}

theorem yields_classByName (qualified : String) : Yields p (classByName qualified) fun q found =>
    ∀ id, found = some id → ∃ c, q.class? id = some c := by
  refine .of_advances (advances_classByName qualified) fun s q _ hq id hid => ?_
  obtain ⟨c, hc⟩ := Program.exists_class?_of_classByName hid
  obtain ⟨c', hc', -⟩ := hq.type hc
  exact ⟨c', hc'⟩

theorem yields_classByName_type (qualified name : String) :
    Yields p (do return (← classByName qualified).map Declaration.type) fun q target =>
      ∀ d, target = some d → Denotes q name d := by
  refine (yields_classByName qualified).bind fun found _ => .pure fun q _ hfound d hd => ?_
  obtain ⟨id, hid, rfl⟩ := Option.map_eq_some_iff.mp hd
  exact hfound id hid

theorem yields_classNamed (name : String) (site : Site) :
    Yields p (classNamed name site) fun q target => ∀ d, target = some d → Denotes q name d := by
  unfold classNamed
  split
  · exact .pure fun _ _ => nofun
  · refine Yields.get.bind fun s _ => ?_
    split
    · exact .pure fun _ _ _ => nofun
    · exact (yields_classByName_type _ name).mono fun _ _ _ h _ => h

theorem yields_simpleTarget (name : String) (names : Names) (site : Site) :
    Yields p (simpleTarget name names site) fun q target =>
      (∀ d, names.lookup name = some d → target = some d) ∧
      (names.lookup name = none → ∀ d, target = some d → Denotes q name d) := by
  refine Yields.get.bind fun s _ => ?_
  dsimp only
  cases hlookup : names.lookup name with
  | some bound => exact .pure fun _ _ _ => ⟨fun d hd => hd, nofun⟩
  | none =>
    dsimp only
    cases hfield : (s.program.enclosing site.owner).findSome? (s.program.findField? · name) with
    | some field =>
      refine .pure fun q _ hq => ⟨nofun, fun _ d hd => ?_⟩
      cases hd
      obtain ⟨id, -, hid⟩ := List.exists_of_findSome?_eq_some hfield
      exact Denotes.grows (p := s.program) (d := .field field) (Program.of_findField? hid) hq
    | none => exact (yields_classNamed name site).mono fun _ _ _ h _ => ⟨nofun, fun _ => h⟩

theorem yields_memberTarget (id : ClassId) (name : String) :
    Yields p (memberTarget id name) fun q target => ∀ d, target = some d → Denotes q name d := by
  refine .of_advances (advances_memberTarget id name) fun s q _ hq d hd => Denotes.grows ?_ hq
  simp only [memberTarget, bind_apply, get_apply] at hd ⊢
  cases hfield : s.program.findField? id name with
  | some field =>
    simp only [hfield] at hd ⊢
    cases hd
    exact Program.of_findField? hfield
  | none =>
    cases hclass : s.program.class? id with
    | none =>
      simp only [hfield, hclass] at hd
      cases hd
    | some c =>
      simp only [hfield, hclass] at hd ⊢
      cases hknown : Library.staticFieldType? c.qualifiedName name with
      | some type =>
        simp only [hknown] at hd ⊢
        cases hd
        exact s.program.field?_addStubField id name type
      | none =>
        simp only [hknown] at hd ⊢
        obtain ⟨nested, hnested, rfl⟩ := Option.map_eq_some_iff.mp hd
        exact ⟨nested, (Program.class?_of_findClass? hnested).1⟩

theorem yields_memberOf (qualifier : Expr) (name text : String) (site : Site) :
    Yields p (memberOf qualifier name text site) fun q target =>
      ∀ d, target = some d → Denotes q name d := by
  refine Yields.bind (Q := fun _ _ => True)
    (.of_advances (advances_receiver qualifier site.owner) fun _ _ _ _ => trivial) fun found _ => ?_
  cases found with
  | some id => exact (yields_memberTarget id name).mono fun _ _ _ h _ => h
  | none =>
    dsimp only
    split
    · exact (yields_classByName_type _ name).mono fun _ _ _ h _ => h
    · exact .pure fun _ _ _ => nofun

end Resolve

end KernelLint
