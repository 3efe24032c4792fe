import KernelLint.Proofs.Resolve.Frame
import KernelLint.Proofs.Resolve.Lasting

/-!
# Signatures qualified again

The names outside bodies are qualified all at once, each from its own place. A program in which each
of these names stays as it is stays as it is as a whole (`qualifySignatures_eq_self`). What
resolution adds is such a program already: stand-ins have no extended classes, throw nothing, and
the types in their signatures come from a fixed list of names that no program qualifies in another
way (`Resolves.isPlain`).
-/

namespace KernelLint

/-- The names of types and annotations in the signature of a method. -/
def Method.signatureNames (m : Method) : List String :=
  (m.params.map (·.type) ++ m.result.toList ++ m.throws).map (·.type.name) ++
    (m.annotations ++ m.innerAnnotations).map (·.name)

namespace Program

variable {p q : Program}

/-! ## Names that stay as they are -/

theorem qualifyUse_eq_self {u : TypeUse} {site : Site}
    (h : q.qualify u.type.name site = u.type.name) :
    q.qualifyUse u site = u := by
  simp only [qualifyUse, qualifyType, h]

theorem qualifyMarking_eq_self {a : AnnotationUse} {site : Site}
    (h : q.qualify a.name site = a.name) :
    q.qualifyMarking site a = a := by
  simp only [qualifyMarking, h]

theorem map_eq_self {α : Type} {f : α → α} {xs : List α} (h : ∀ x ∈ xs, f x = x) :
    xs.map f = xs := by
  rw [List.map_congr_left h, List.map_id']

theorem qualifyMethod_eq_self {m : Method}
    (h : ∀ n ∈ m.signatureNames, q.qualify n ⟨m.file, m.owner⟩ = n) :
    q.qualifyMethod m = m := by
  simp only [Method.signatureNames, List.map_append, List.forall_mem_append,
    List.forall_mem_map] at h
  obtain ⟨⟨⟨hparams, hresult⟩, hthrows⟩, hannotations, hinner⟩ := h
  have hparams' : m.params.map (fun x => { x with type := q.qualifyUse x.type ⟨m.file, m.owner⟩ }) =
      m.params := by
    refine map_eq_self fun x hx => ?_
    rw [qualifyUse_eq_self (hparams x hx)]
  have hresult' : m.result.map (q.qualifyUse · ⟨m.file, m.owner⟩) = m.result := by
    cases hm : m.result with
    | none => rfl
    | some u =>
      rw [Option.map_some, qualifyUse_eq_self (hresult u (by simp [hm]))]
  have hthrows' := map_eq_self fun u hu => qualifyUse_eq_self (hthrows u hu)
  have hannotations' := map_eq_self fun a ha => qualifyMarking_eq_self (hannotations a ha)
  have hinner' := map_eq_self fun a ha => qualifyMarking_eq_self (hinner a ha)
  simp only [qualifyMethod, hparams', hresult', hthrows', hannotations', hinner']

theorem signatureNames_qualifyMethod (p : Program) (m : Method) :
    (p.qualifyMethod m).signatureNames = m.signatureNames.map (p.qualify · ⟨m.file, m.owner⟩) := by
  simp only [Method.signatureNames, qualifyMethod, List.map_append, List.map_map, Option.toList_map]
  rfl

theorem map_array_eq_self {α : Type} {f : α → α} {xs : Array α}
    (h : ∀ (i : Nat) (x : α), xs[i]? = some x → f x = x) :
    xs.map f = xs := by
  refine Array.ext_getElem? fun i => ?_
  rw [Array.getElem?_map]
  cases hx : xs[i]? with
  | none => rfl
  | some x => rw [Option.map_some, h i x hx]

/-- **A program stays as it is** if each name outside its bodies does. -/
theorem qualifySignatures_eq_self
    (hclasses : ∀ id c, q.class? id = some c → ∀ n ∈ c.superName, q.qualify n ⟨c.file, c.outer⟩ = n)
    (hfields : ∀ id f c, q.field? id = some f → q.class? f.owner = some c → f.id ∈ c.fields →
      q.qualify f.type.type.name ⟨c.file, some f.owner⟩ = f.type.type.name)
    (hmethods : ∀ id m, q.method? id = some m →
      ∀ n ∈ m.signatureNames, q.qualify n ⟨m.file, m.owner⟩ = n) :
    q.qualifySignatures = q := by
  have hclasses' : q.classes.map q.qualifyClass = q.classes := by
    refine map_array_eq_self fun i c hc => ?_
    have hname : c.superName.map (q.qualify · ⟨c.file, c.outer⟩) = c.superName := by
      cases hn : c.superName with
      | none => rfl
      | some n => rw [Option.map_some, hclasses ⟨i⟩ c hc n hn]
    simp only [qualifyClass, hname]
  have hfields' : q.fields.map q.qualifyField = q.fields := by
    refine map_array_eq_self fun i f hf => ?_
    unfold qualifyField
    split
    · rename_i c hc
      split
      · rename_i hlisted
        rw [qualifyUse_eq_self (hfields ⟨i⟩ f c hf hc (by simpa using hlisted))]
      · rfl
    · rfl
  have hmethods' : q.methodSlots.map (Option.map q.qualifyMethod) = q.methodSlots := by
    refine map_array_eq_self fun i slot hslot => ?_
    cases slot with
    | none => rfl
    | some m =>
      have hm : q.method? ⟨i⟩ = some m := by simp [method?, hslot]
      rw [Option.map_some, qualifyMethod_eq_self (hmethods ⟨i⟩ m hm)]
  have hwith : ∀ {classes fields slots} hc hf hs, classes = q.classes → fields = q.fields →
    slots = q.methodSlots →
      ({ q with classes, fields, methodSlots := slots, classes_numbered := hc, fields_numbered := hf
                slots_numbered := hs } : Program) = q := by
    rintro _ _ _ _ _ _ rfl rfl rfl
    rfl
  exact hwith _ _ _ hclasses' hfields' hmethods'

theorem qualifyField_owner (p : Program) (f : Field) : (p.qualifyField f).owner = f.owner := by
  have hsame := (p.alike_qualifyField f).same
  rw [hsame]

theorem Grounded.qualifySignatures (h : p.Grounded) : p.qualifySignatures.Grounded := by
  have hfields : p.qualifySignatures.fields.size = p.fields.size := by
    simp [Program.qualifySignatures]
  have hclasses : p.qualifySignatures.classes.size = p.classes.size := by
    simp [Program.qualifySignatures]
  constructor
  · rw [hfields]
    exact h.classes.map fun i c hc => ⟨hc.outer, hc.file, hc.listed, hc.named⟩
  · rw [hclasses]
    refine h.methods.map fun i slot hslot m hm => ?_
    obtain ⟨m', hm', rfl⟩ := Option.map_eq_some_iff.mp hm
    exact ⟨(hslot m' hm').owner, (hslot m' hm').file⟩
  · rw [hclasses]
    refine h.fields.map fun i f hf => ?_
    rw [qualifyField_owner]
    exact hf

/-! ## Stand-ins -/

theorem qualify_memberTypes {name : String} (h : name ∈ Library.memberTypes) (site : Site) :
    q.qualify name site = name := by
  have hplain : ∀ n ∈ Library.memberTypes, isBuiltinName n = true ∨
      Text.isDotted n = true ∧
      Text.startsUppercase (Text.firstSegment n) = false := by
      decide +kernel
  rcases hplain name h with hbuiltin | ⟨hdotted, hlower⟩
  · exact qualify_of_known (by rw [hbuiltin, Bool.true_or])
  · exact qualify_of_rooted hdotted fun hupper => by simp [hlower] at hupper

theorem mem_memberTypes_of_staticFieldType? {className name : String} {type : ErasedType}
    (h : Library.staticFieldType? className name = some type) :
    type.name ∈ Library.memberTypes := by
  obtain ⟨entry, hentry, rfl⟩ := Option.map_eq_some_iff.mp h
  refine List.mem_cons_of_mem _ (List.mem_map.mpr ⟨entry, ?_, rfl⟩)
  exact List.mem_append_right _ (List.mem_of_find?_eq_some hentry)

theorem Adding.isPlain (h : p.Adding q) {id : MethodId} {m : Method} (hm : q.method? id = some m)
    (hnew : ¬ p.HasGiven id) : m.IsPlain := by
  have hsame : q.methodSlots = p.methodSlots → m.IsPlain := by
    intro hslots
    refine absurd (index_lt_of_method? hm) ?_
    rw [hslots]
    exact hnew
  cases h with
  | node => exact hsame rfl
  | file _ => exact hsame rfl
  | standInClass _ _ _ _ _ => exact hsame (methodSlots_linkClass _ _ _)
  | standInField _ _ _ _ => exact hsame rfl
  | @standInMethod x owner c hstand hplain _ _ _ =>
    rw [method?_addMethod] at hm
    split at hm
    · cases hm
      exact hplain
    · exact absurd (index_lt_of_method? hm) hnew

/-- **What is known of new methods** is known of the library. -/
theorem Resolves.isPlain (h : p.Resolves q) {id : MethodId} {m : Method}
    (hm : q.method? id = some m) (hnew : ¬ p.HasGiven id) : m.IsPlain := by
  induction h generalizing m with
  | refl => exact absurd (index_lt_of_method? hm) hnew
  | @tail r q hsteps hstep ih =>
    by_cases hgiven : r.HasGiven id
    · obtain ⟨m', hm', hsame, -⟩ := hstep.grows.method?_of_hasGiven hm hgiven
      have hplain := ih hm'
      rw [hsame]
      exact hplain
    · cases hstep with
      | adding hstep => exact hstep.isPlain hm hgiven
      | body hlive _ body =>
        have hlt := index_lt_of_method? hm
        simp only [modifyMethod, Array.size_modify] at hlt
        exact absurd hlt hgiven

/-! ## Fields of classes -/

theorem Adding.mem_fields (h : p.Adding q) {owner : ClassId} {c : TypeDecl} {id : FieldId}
    (hc : q.class? owner = some c) (hmem : id ∈ c.fields) (hid : id.index < p.fields.size) :
    ∃ c', p.class? owner = some c' ∧ id ∈ c'.fields := by
  cases h with
  | node => exact ⟨c, hc, hmem⟩
  | file _ => exact ⟨c, hc, hmem⟩
  | standInClass hstand _ hfields _ _ =>
    rw [class?_addClass] at hc
    split at hc
    · cases hc
      simp [hfields] at hmem
    · simp only [hstand.outer_eq, reduceCtorEq, if_false, Option.map_id'] at hc
      exact ⟨c, hc, hmem⟩
  | @standInField f _ _ _ _ _ =>
    rw [class?_addField] at hc
    obtain ⟨c', hc', rfl⟩ := Option.map_eq_some_iff.mp hc
    refine ⟨c', hc', ?_⟩
    split at hmem
    · rcases List.mem_append.mp hmem with hmem | hmem
      · exact hmem
      · obtain rfl := List.mem_singleton.mp hmem
        exact absurd hid (Nat.lt_irrefl _)
    · exact hmem
  | @standInMethod m _ _ _ _ _ _ _ =>
    rw [class?_addMethod] at hc
    obtain ⟨c', hc', rfl⟩ := Option.map_eq_some_iff.mp hc
    refine ⟨c', hc', ?_⟩
    split at hmem <;> exact hmem

theorem Resolves.mem_fields (h : p.Resolves q) {owner : ClassId} {c : TypeDecl} {id : FieldId}
    (hc : q.class? owner = some c) (hmem : id ∈ c.fields) (hid : id.index < p.fields.size) :
    ∃ c', p.class? owner = some c' ∧ id ∈ c'.fields := by
  induction h generalizing c with
  | refl => exact ⟨c, hc, hmem⟩
  | @tail r q hsteps hstep ih =>
    obtain ⟨x, hx⟩ := Option.isSome_iff_exists.mp
      (by simp [field?, hid] : (p.field? id).isSome = true)
    have hlt : id.index < r.fields.size := index_lt_of_field? ((Resolves.grows hsteps).field hx)
    cases hstep with
    | adding hstep =>
      obtain ⟨c', hc', hmem'⟩ := hstep.mem_fields hc hmem hlt
      exact ih hc' hmem'
    | body _ _ _ => exact ih hc hmem

end Program

end KernelLint
