import KernelLint.Proofs.Resolve.Traversal

/-!
# What resolution leaves alone

Resolution changes the names of types, annotations and extended classes and the targets inside
bodies, and nothing else. Qualifying the signatures changes every entity on its own; from then on
the program only grows, and a method gets another body only from the traversal, which answers an
alike one. What is new was made as a stand-in.
-/

namespace KernelLint

/-- The same class, perhaps with another name for the class it extends and with more methods and
fields. -/
structure TypeDecl.Alike (c c' : TypeDecl) : Prop where
  same : c' = { c with superName := c'.superName, methods := c'.methods, fields := c'.fields }
  superName : c'.superName.isSome = c.superName.isSome
  methods : c.methods <+: c'.methods
  fields : c.fields <+: c'.fields

/-- The same field of an alike type. -/
structure Field.Alike (f f' : Field) : Prop where
  same : f' = { f with type := f'.type }
  type : f.type.Alike f'.type

/-- The same annotation, perhaps under another name. -/
structure AnnotationUse.Alike (a a' : AnnotationUse) : Prop where
  same : a' = { a with name := a'.name }

/-- The same parameter of an alike type. -/
structure Parameter.Alike (x x' : Parameter) : Prop where
  same : x' = { x with type := x'.type }
  type : x.type.Alike x'.type

/-- The same method with an alike signature, and with its body or an alike one. -/
structure Method.Alike (m m' : Method) : Prop where
  same : m' = { m with
    params := m'.params, result := m'.result, throws := m'.throws, annotations := m'.annotations
    innerAnnotations := m'.innerAnnotations, body := m'.body }
  params : List.Forall₂ Parameter.Alike m.params m'.params
  result : Option.Rel TypeUse.Alike m.result m'.result
  throws : List.Forall₂ TypeUse.Alike m.throws m'.throws
  annotations : List.Forall₂ AnnotationUse.Alike m.annotations m'.annotations
  innerAnnotations : List.Forall₂ AnnotationUse.Alike m.innerAnnotations m'.innerAnnotations
  body : Option.Rel (fun b b' => b' = b ∨ b.Alike b') m.body m'.body

namespace Program

variable {p : Program}

/-! ## Signatures -/

theorem alike_qualifyUse (p : Program) (u : TypeUse) (site : Site) :
    u.Alike (p.qualifyUse u site) := ⟨rfl, rfl⟩

theorem alike_qualifyClass (p : Program) (c : TypeDecl) : c.Alike (p.qualifyClass c) :=
  ⟨rfl, by simp [qualifyClass], List.prefix_rfl, List.prefix_rfl⟩

theorem alike_qualifyField (p : Program) (f : Field) : f.Alike (p.qualifyField f) := by
  unfold qualifyField
  split
  · split
    · exact ⟨rfl, p.alike_qualifyUse _ _⟩
    · exact ⟨rfl, rfl, rfl⟩
  · exact ⟨rfl, rfl, rfl⟩

theorem forall₂_map {α : Type} {R : α → α → Prop} {f : α → α} (h : ∀ x, R x (f x)) (xs : List α) :
    List.Forall₂ R xs (xs.map f) := by
  rw [List.forall₂_map_right_iff]
  exact List.forall₂_same.mpr fun x _ => h x

theorem rel_map {α : Type} {R : α → α → Prop} {f : α → α} (h : ∀ x, R x (f x)) (o : Option α) :
    Option.Rel R o (o.map f) := by
  cases o with
  | none => exact .none
  | some x => exact .some (h x)

theorem alike_qualifyMethod (p : Program) (m : Method) {body : Option Stmt}
    (hbody : Option.Rel (fun b b' => b' = b ∨ b.Alike b') m.body body) :
    m.Alike { p.qualifyMethod m with body := body } where
  same := rfl
  params := forall₂_map (fun x => ⟨rfl, p.alike_qualifyUse x.type _⟩) m.params
  result := rel_map (fun u => p.alike_qualifyUse u _) m.result
  throws := forall₂_map (fun u => p.alike_qualifyUse u _) m.throws
  annotations := forall₂_map (fun _ => ⟨rfl⟩) m.annotations
  innerAnnotations := forall₂_map (fun _ => ⟨rfl⟩) m.innerAnnotations
  body := hbody

theorem class?_qualifySignatures (p : Program) (id : ClassId) :
    p.qualifySignatures.class? id = (p.class? id).map p.qualifyClass := by
  simp [qualifySignatures, class?]

theorem field?_qualifySignatures (p : Program) (id : FieldId) :
    p.qualifySignatures.field? id = (p.field? id).map p.qualifyField := by
  simp [qualifySignatures, field?]

theorem method?_qualifySignatures (p : Program) (id : MethodId) :
    p.qualifySignatures.method? id = (p.method? id).map p.qualifyMethod := by
  simp only [qualifySignatures, method?, Array.getElem?_map]
  cases p.methodSlots[id.index]? with
  | none => rfl
  | some slot => cases slot <;> rfl

/-! ## Bodies -/

theorem alike_method?_resolve {id : MethodId} {m : Method} (hm : p.method? id = some m) :
    ∃ m', p.resolve.method? id = some m' ∧ m.Alike m' := by
  have hqualified : p.qualifySignatures.method? id = some (p.qualifyMethod m) := by
    rw [method?_qualifySignatures, hm, Option.map_some]
  by_cases hid : id ∈ p.qualifySignatures.resolvable
  · obtain ⟨_, body, r, hm', hbody, hr, hlater, hfound⟩ := p.exists_traversal hid
    obtain rfl := Option.some.inj (hqualified.symm.trans hm')
    have halike :=
      ((Resolve.yields_stmt (Resolve.aims_trivial _ _ _) [] body).holds r _ hr hlater).1
    refine ⟨_, hfound, p.alike_qualifyMethod m ?_⟩
    rw [show m.body = some body from hbody]
    exact .some (.inr halike)
  · have hfound := p.method?_resolve_of_not_mem hid (index_lt_of_method? hqualified)
    refine ⟨p.qualifyMethod m, hfound.trans hqualified, p.alike_qualifyMethod m ?_⟩
    cases m.body with
    | none => exact .none
    | some b => exact .some (.inl rfl)

end Program

/-- **Resolution never loses or reshapes code.** Every file, class, field and live method is found
again under its identity. A class has at most another name for the class it extends and more methods
and fields, a field at most another name of its type, and a method at most other names of types and
annotations and an alike body. What is new is a stand-in: the one file that holds them, public
classes in it, public fields that are static and final, and public methods without a body; and none
of these methods takes the identity of a removed one. -/
theorem resolve_keeps_code (p : Program) :
    let q := p.resolve
    (∀ id f, p.file? id = some f → ∃ f', q.file? id = some f' ∧ f.Grows f') ∧
    (∀ id c, p.class? id = some c → ∃ c', q.class? id = some c' ∧ c.Alike c') ∧
    (∀ id f, p.field? id = some f → ∃ f', q.field? id = some f' ∧ f.Alike f') ∧
    (∀ id m, p.method? id = some m → ∃ m', q.method? id = some m' ∧ m.Alike m') ∧
    (∀ id f, q.file? id = some f → p.file? id = none → f.IsStandIn ∧ q.stubFile? = some id) ∧
    (∀ id c, q.class? id = some c → p.class? id = none → c.IsStandIn ∧ q.stubFile? = some c.file) ∧
    (∀ id f, q.field? id = some f → p.field? id = none → f.IsStandIn) ∧
    (∀ id m, q.method? id = some m → p.method? id = none → m.IsStandIn ∧ ¬ p.HasGiven id) := by
  intro q
  have hgrows := p.grows_resolve
  refine ⟨fun id f hf => hgrows.file hf, fun id c hc => ?_, fun id f hf => ?_, fun id m hm => ?_,
    fun id f hf hnone => hgrows.newFile hf hnone, fun id c hc hnone => ?_, fun id f hf hnone => ?_,
    fun id m hm hnone => ?_⟩
  · obtain ⟨c', hc', hlater⟩ :=
      hgrows.type (by rw [p.class?_qualifySignatures, hc, Option.map_some])
    have hqualified := p.alike_qualifyClass c
    refine ⟨c', hc', ?_, ?_, hqualified.methods.trans hlater.methods,
      hqualified.fields.trans hlater.fields⟩
    · rw [hlater.same]
      rfl
    · rw [hlater.same]
      exact hqualified.superName
  · refine ⟨p.qualifyField f, hgrows.field ?_, p.alike_qualifyField f⟩
    rw [p.field?_qualifySignatures, hf, Option.map_some]
  · exact Program.alike_method?_resolve hm
  · exact hgrows.newType hc (by rw [p.class?_qualifySignatures, hnone, Option.map_none])
  · exact (hgrows.newField hf (by rw [p.field?_qualifySignatures, hnone, Option.map_none])).1
  · have hnew : ¬ p.qualifySignatures.HasGiven id := by
      intro hgiven
      obtain ⟨m', hm', -⟩ := hgrows.method?_of_hasGiven hm hgiven
      simp [p.method?_qualifySignatures, hnone] at hm'
    refine ⟨(hgrows.newMethod hm hnew).1, fun hgiven => hnew ?_⟩
    simpa [Program.HasGiven, Program.qualifySignatures] using hgiven

end KernelLint
