import KernelLint.Java.Source
import KernelLint.Proofs.Java.Reading
import KernelLint.Proofs.Resolve.Repeat
import KernelLint.Proofs.Resolve.Signature

/-!
# Resolving twice

A resolved program is resolved again. Nothing changes, as long as nothing comes in the way of what
is looked up the second time (`Program.Undisturbed`): the names that are written keep their meaning,
the names that they became are not taken for others, and what was not found, or was found for want
of something better, is not found among the stand-ins of the first time. Where something does come
in the way, the second time gives another answer.
-/

namespace KernelLint

/-- The simple names that are looked up for a method. -/
def Method.mentioned (m : Method) : List String :=
  m.signatureNames.map Text.firstSegment ++ m.visits.flatMap Visit.mentioned

namespace Program

/-- The simple names that are looked up for a program, with the places that they are looked up
from. -/
def mentions (p : Program) : List (String × Site) :=
  p.classes.toList.flatMap (fun c => c.superName.toList.map fun n =>
    (Text.firstSegment n, ⟨c.file, c.outer⟩)) ++
  p.fields.toList.flatMap (fun f => (p.class? f.owner).toList.map fun c =>
    (Text.firstSegment f.type.type.name, ⟨c.file, some f.owner⟩)) ++
  p.methods.flatMap fun m => m.mentioned.map fun n => (n, ⟨m.file, m.owner⟩)

/-- The names of the types of all variables in bodies, with the places of the bodies. -/
def variableTypes (p : Program) : List (String × Site) :=
  p.methods.flatMap fun m => m.locals.map fun l => (l.type.type.name, ⟨m.file, m.owner⟩)

/-- The simple names that have to mean the same the second time: those that are looked up the first
time, and the first segments of the types that variables have by then. -/
def steadyNames (p : Program) : List (String × Site) :=
  p.mentions ++ p.resolve.variableTypes.map fun x => (Text.firstSegment x.1, x.2)

/-- The methods of the second program that are not in the first one. -/
def newMethods (p q : Program) : List Method :=
  (q.methodSlots.toList.drop p.methodSlots.size).filterMap id

end Program

/-- No new declaration is what a name should have denoted, or suits a call better than the method
that was found. -/
def Visit.IsSpared (p q : Program) (site : Site) : Visit → Prop
  | .expr (.name _ id qualifier target) => Resolve.Unmissed p q site id qualifier target
  | .expr (.call _ _ _ args (some method)) => q.BestFor method args.length
  | _ => True

instance (p q : Program) (site : Site) (v : Visit) : Decidable (v.IsSpared p q site) := by
  unfold Visit.IsSpared
  split <;> infer_instance

namespace Program

/-- Nothing comes in the way when the program is resolved again. -/
structure Undisturbed (p : Program) : Prop where
  /-- No stand-in for a class alone changes the meaning of a name. -/
  names : ∀ x ∈ p.steadyNames, ∀ c ∈ p.newClasses p.resolve,
    (p.stubClass c.qualifiedName).2.qualifySimple? x.1 x.2 = p.qualifySimple? x.1 x.2
  /-- What a name means does not begin with a segment that itself means something else. -/
  roots : ∀ x ∈ p.mentions, ∀ w ∈ p.qualifySimple? x.1 x.2,
    Text.startsUppercase (Text.firstSegment w) = true →
    (p.resolve.qualifySimple? (Text.firstSegment w) x.2).getD (Text.firstSegment w) =
      Text.firstSegment w
  /-- The type of a variable does not begin with a segment that means something else, unless it is a
  class. -/
  types : ∀ x ∈ p.resolve.variableTypes, p.resolve.hasClass x.1 = false → Text.isDotted x.1 = true →
    Text.startsUppercase (Text.firstSegment x.1) = true →
      (p.resolve.qualifySimple? (Text.firstSegment x.1) x.2).getD (Text.firstSegment x.1) =
        Text.firstSegment x.1
  /-- Stand-ins for methods are in library classes. -/
  methods : ∀ m ∈ p.newMethods p.resolve, ∀ owner ∈ m.owner, p.resolve.isLibraryClass owner = true
  /-- No search along extended classes is cut off right before a stand-in. -/
  chains : ∀ c ∈ p.resolve.classes.toList, ∀ last ∈ p.resolve.ancestor? (chainLimit - 1) c.id,
    ∀ superId ∈ p.resolve.superClass? last, superId.index < p.classes.size
  /-- No stand-in is what a name in a body should have denoted, or suits a call better. -/
  bodies : ∀ m ∈ p.resolve.methods, ∀ v ∈ m.visits, v.IsSpared p p.resolve ⟨m.file, m.owner⟩

instance (p : Program) : Decidable p.Undisturbed :=
  decidable_of_iff ((∀ x ∈ p.steadyNames, ∀ c ∈ p.newClasses p.resolve,
      (p.stubClass c.qualifiedName).2.qualifySimple? x.1 x.2 = p.qualifySimple? x.1 x.2) ∧
    (∀ x ∈ p.mentions, ∀ w ∈ p.qualifySimple? x.1 x.2,
      Text.startsUppercase (Text.firstSegment w) = true →
      (p.resolve.qualifySimple? (Text.firstSegment w) x.2).getD (Text.firstSegment w) =
        Text.firstSegment w) ∧
    (∀ x ∈ p.resolve.variableTypes, p.resolve.hasClass x.1 = false → Text.isDotted x.1 = true →
      Text.startsUppercase (Text.firstSegment x.1) = true →
        (p.resolve.qualifySimple? (Text.firstSegment x.1) x.2).getD (Text.firstSegment x.1) =
          Text.firstSegment x.1) ∧
    (∀ m ∈ p.newMethods p.resolve, ∀ owner ∈ m.owner, p.resolve.isLibraryClass owner = true) ∧
    (∀ c ∈ p.resolve.classes.toList, ∀ last ∈ p.resolve.ancestor? (chainLimit - 1) c.id,
      ∀ superId ∈ p.resolve.superClass? last, superId.index < p.classes.size) ∧
    ∀ m ∈ p.resolve.methods, ∀ v ∈ m.visits, v.IsSpared p p.resolve ⟨m.file, m.owner⟩)
    ⟨fun ⟨names, roots, types, methods, chains, bodies⟩ =>
      ⟨names, roots, types, methods, chains, bodies⟩,
      fun ⟨names, roots, types, methods, chains, bodies⟩ =>
        ⟨names, roots, types, methods, chains, bodies⟩⟩

variable {p : Program}

/-! ## The program with its signatures qualified -/

theorem extends_qualifySignatures (p : Program) : p.Extends p.qualifySignatures where
  type := fun {id c} hc => ⟨p.qualifyClass c,
    by rw [class?_qualifySignatures, hc, Option.map_some], rfl⟩
  file := fun hf => ⟨_, hf, rfl⟩

theorem extends_resolve (p : Program) : p.Extends p.resolve :=
  p.extends_qualifySignatures.trans p.grows_resolve.extends

theorem newClasses_qualifySignatures (p q : Program) :
    p.qualifySignatures.newClasses q = p.newClasses q := by
  simp [newClasses, qualifySignatures]

theorem newFields_qualifySignatures (p q : Program) :
    p.qualifySignatures.newFields q = p.newFields q := by
  simp [newFields, qualifySignatures]

theorem unmissed_qualifySignatures (hp : p.Grounded) {q : Program} {site : Site}
    (howner : ∀ o ∈ site.owner, o.index < p.classes.size) :
    ∀ id qualifier target, Resolve.Unmissed p q site id qualifier target →
      Resolve.Unmissed p.qualifySignatures q site id qualifier target := by
  have henclosing := (p.extends_qualifySignatures.enclosing hp howner).1
  have hfielded : ∀ name, p.Unfielded q name site → p.qualifySignatures.Unfielded q name site := by
    intro name hname
    rw [Unfielded, newFields_qualifySignatures, henclosing]
    exact hname
  have hnested : ∀ name, p.Unnested q name → p.qualifySignatures.Unnested q name := by
    intro name hname
    rw [Unnested, newClasses_qualifySignatures]
    exact hname
  intro id qualifier target h
  match target with
  | some (.localVar _) => trivial
  | some (.parameter _ _) => trivial
  | some (.field _) => exact fun hsimple => hfielded id (h hsimple)
  | some (.type _) => exact hfielded id h
  | some (.method _) => exact hfielded id h
  | none => exact ⟨hfielded id h.1, fun hqualified => hnested id (h.2 hqualified)⟩

/-! ## Names -/

section

variable (hp : p.Grounded) (h : p.Undisturbed)
include hp h

theorem Undisturbed.qualifySimple? {name : String} {site : Site}
    (hsteady : (name, site) ∈ p.steadyNames) (hsite : site.IsIn p) {r : Program} (hr : p.Extends r)
    (hq : r.Extends p.resolve) :
    r.qualifySimple? name site = p.qualifySimple? name site := by
  refine hr.qualifySimple? hp hsite fun id c hc hnew => ?_
  obtain ⟨c', hc', hlabel⟩ := hq.type hc
  have hqualified : c'.qualifiedName = c.qualifiedName := congrArg (·.2.1) hlabel
  have hnew' : p.qualifySignatures.class? id = none := by
    rw [class?_qualifySignatures, hnew, Option.map_none]
  rw [← hqualified]
  refine ⟨(p.grows_resolve.newType hc' hnew').1.dotted, ?_⟩
  exact h.names _ hsteady c' (mem_newClasses.mpr ⟨id, hc', hnew⟩)

theorem Undisturbed.same {name : String} {site : Site} (hsteady : (name, site) ∈ p.steadyNames)
    (hsite : site.IsIn p) {r : Program} (hr : p.qualifySignatures.Extends r)
    (hq : r.Extends p.resolve) :
    r.qualifySimple? name site = p.qualifySignatures.qualifySimple? name site := by
  have hthen :=
    h.qualifySimple? hp hsteady hsite p.extends_qualifySignatures p.grows_resolve.extends
  exact (h.qualifySimple? hp hsteady hsite (p.extends_qualifySignatures.trans hr) hq).trans
    hthen.symm

theorem Undisturbed.steady {name : String} {site : Site} (hmention : (name, site) ∈ p.mentions)
    (hsite : site.IsIn p) : p.qualifySignatures.Steady p.resolve name site where
  same := h.same hp (List.mem_append_left _ hmention) hsite
  rooted := by
    intro w hw
    rw [h.qualifySimple? hp (List.mem_append_left _ hmention) hsite p.extends_qualifySignatures
      p.grows_resolve.extends] at hw
    exact h.roots _ hmention w hw

theorem Undisturbed.rests {m : Method} (hm : m ∈ p.resolve.methods)
    (hsite : Site.IsIn ⟨m.file, m.owner⟩ p) {l : Local} (hl : Visit.localVar l ∈ m.visits) :
    p.qualifySignatures.Rests p.resolve l.type.type.name ⟨m.file, m.owner⟩ := by
  have hlocal : l ∈ m.locals := List.mem_filterMap.mpr ⟨_, hl, rfl⟩
  have htype : (l.type.type.name, (⟨m.file, m.owner⟩ : Site)) ∈ p.resolve.variableTypes :=
    List.mem_flatMap.mpr ⟨m, hm, List.mem_map.mpr ⟨l, hlocal, rfl⟩⟩
  exact ⟨h.same hp (List.mem_append_right _ (List.mem_map.mpr ⟨_, htype, rfl⟩)) hsite,
    h.types _ htype⟩

theorem Undisturbed.firm {m : Method} (hm : m ∈ p.resolve.methods)
    (hsite : Site.IsIn ⟨m.file, m.owner⟩ p) {v : Visit} (hv : v ∈ m.visits) :
    v.Firm p.qualifySignatures p.resolve ⟨m.file, m.owner⟩ := by
  have hspared := h.bodies m hm v hv
  unfold Visit.IsSpared at hspared
  split at hspared
  · exact unmissed_qualifySignatures hp hsite.owner _ _ _ hspared
  · exact hspared
  · rename_i hname hcall
    unfold Visit.Firm
    split
    · exact absurd rfl (hname _ _ _ _)
    · exact absurd rfl (hcall _ _ _ _ _)
    · exact h.rests hp hm hsite hv
    · trivial

theorem Undisturbed.qualify {name : String} {site : Site}
    (hmention : (Text.firstSegment name, site) ∈ p.mentions) (hsite : site.IsIn p) :
    p.resolve.qualify (p.qualify name site) site = p.qualify name site := by
  refine qualify_qualify hp p.extends_resolve ?_ fun w hw => h.roots _ hmention w hw
  exact h.qualifySimple? hp (List.mem_append_left _ hmention) hsite p.extends_resolve (.refl _)

end

theorem mem_mentions_of_superName {id : ClassId} {c : TypeDecl} {n : String}
    (hc : p.class? id = some c) (hn : n ∈ c.superName) :
    (Text.firstSegment n, ⟨c.file, c.outer⟩) ∈ p.mentions := by
  refine List.mem_append_left _ (List.mem_append_left _ (List.mem_flatMap.mpr ⟨c, ?_, ?_⟩))
  · exact Array.mem_toList_iff.mpr (Array.mem_of_getElem? hc)
  · exact List.mem_map.mpr ⟨n, Option.mem_toList.mpr hn, rfl⟩

theorem mem_mentions_of_field {id : FieldId} {f : Field} {c : TypeDecl} (hf : p.field? id = some f)
    (hc : p.class? f.owner = some c) :
    (Text.firstSegment f.type.type.name, ⟨c.file, some f.owner⟩) ∈ p.mentions := by
  refine List.mem_append_left _ (List.mem_append_right _ (List.mem_flatMap.mpr ⟨f, ?_, ?_⟩))
  · exact Array.mem_toList_iff.mpr (Array.mem_of_getElem? hf)
  · exact List.mem_map.mpr ⟨c, Option.mem_toList.mpr hc, rfl⟩

theorem mem_mentions_of_method {id : MethodId} {m : Method} {n : String}
    (hm : p.method? id = some m) (hn : n ∈ m.mentioned) : (n, ⟨m.file, m.owner⟩) ∈ p.mentions := by
  refine List.mem_append_right _ (List.mem_flatMap.mpr ⟨m, mem_methods_of_method? hm, ?_⟩)
  exact List.mem_map.mpr ⟨n, hn, rfl⟩

/-! ## Signatures -/

section

variable (hp : p.Grounded) (h : p.Undisturbed)
include hp h

theorem Undisturbed.qualify_superName {id : ClassId} {c : TypeDecl}
    (hc : p.resolve.class? id = some c) {n : String} (hn : n ∈ c.superName) :
    p.resolve.qualify n ⟨c.file, c.outer⟩ = n := by
  cases hold : p.class? id with
  | none =>
    have hnew : p.qualifySignatures.class? id = none := by
      rw [class?_qualifySignatures, hold, Option.map_none]
    rw [(p.grows_resolve.newType hc hnew).1.superName_eq] at hn
    cases hn
  | some x =>
    obtain ⟨c', hc', hgrows⟩ :=
      p.grows_resolve.type (by rw [class?_qualifySignatures, hold, Option.map_some])
    obtain rfl := Option.some.inj (hc'.symm.trans hc)
    rw [hgrows.superName_eq] at hn
    obtain ⟨w, hw, rfl⟩ := Option.map_eq_some_iff.mp hn
    rw [hgrows.file_eq, hgrows.outer_eq]
    have hsite : (⟨x.file, x.outer⟩ : Site).IsIn p := by
      refine ⟨(hp.class? hold).file, fun o ho => ?_⟩
      exact Nat.lt_trans ((hp.class? hold).outer o ho) (index_lt_of_class? hold)
    exact h.qualify hp (mem_mentions_of_superName hold hw) hsite

theorem Undisturbed.qualify_field {id : FieldId} {f : Field} {c : TypeDecl}
    (hf : p.resolve.field? id = some f) (hc : p.resolve.class? f.owner = some c)
    (hlisted : f.id ∈ c.fields) :
    p.resolve.qualify f.type.type.name ⟨c.file, some f.owner⟩ = f.type.type.name := by
  cases hold : p.field? id with
  | none =>
    have hnew : p.qualifySignatures.field? id = none := by
      rw [field?_qualifySignatures, hold, Option.map_none]
    obtain ⟨-, d, -, hknown⟩ := p.grows_resolve.newField hf hnew
    exact qualify_memberTypes (mem_memberTypes_of_staticFieldType? hknown) _
  | some x =>
    have hx : p.qualifySignatures.field? id = some (p.qualifyField x) := by
      rw [field?_qualifySignatures, hold, Option.map_some]
    obtain rfl := Option.some.inj ((p.grows_resolve.field hx).symm.trans hf)
    have howner := p.qualifyField_owner x
    have hid := congrArg FieldId.index (p.fields_numbered id.index x hold)
    obtain ⟨d, hd, hmem⟩ := p.resolves_resolve.mem_fields hc hlisted (by
      rw [qualifyField_id, hid]
      exact index_lt_of_field? hx)
    rw [howner, class?_qualifySignatures] at hd
    obtain ⟨y, hy, rfl⟩ := Option.map_eq_some_iff.mp hd
    rw [howner] at hc
    obtain ⟨c', hc', hgrows⟩ :=
      p.grows_resolve.type (by rw [class?_qualifySignatures, hy, Option.map_some])
    obtain rfl := Option.some.inj (hc'.symm.trans hc)
    have hsite : (⟨y.file, some x.owner⟩ : Site).IsIn p := by
      refine ⟨(hp.class? hy).file, ?_⟩
      rintro o ⟨⟩
      exact index_lt_of_class? hy
    have htype : (p.qualifyField x).type = p.qualifyUse x.type ⟨y.file, some x.owner⟩ := by
      rw [qualifyField_id] at hmem
      have hcontains : y.fields.contains x.id = true := List.contains_iff_mem.mpr hmem
      simp only [qualifyField, hy, hcontains, if_true]
    rw [howner, hgrows.file_eq, htype]
    exact h.qualify hp (mem_mentions_of_field hold hy) hsite

theorem Undisturbed.qualify_signature {id : MethodId} {m : Method}
    (hm : p.resolve.method? id = some m) {n : String} (hn : n ∈ m.signatureNames) :
    p.resolve.qualify n ⟨m.file, m.owner⟩ = n := by
  by_cases hgiven : p.qualifySignatures.HasGiven id
  · obtain ⟨m', hm', hsame, -⟩ := p.grows_resolve.method?_of_hasGiven hm hgiven
    rw [method?_qualifySignatures] at hm'
    obtain ⟨x, hx, rfl⟩ := Option.map_eq_some_iff.mp hm'
    have hnames : m.signatureNames = (p.qualifyMethod x).signatureNames := by rw [hsame]; rfl
    have hfile : m.file = x.file := by rw [hsame]; rfl
    have howner : m.owner = x.owner := by rw [hsame]; rfl
    rw [hnames, signatureNames_qualifyMethod] at hn
    obtain ⟨w, hw, rfl⟩ := List.mem_map.mp hn
    rw [hfile, howner]
    have hmention : Text.firstSegment w ∈ x.mentioned :=
      List.mem_append_left _ (List.mem_map_of_mem hw)
    exact h.qualify hp (mem_mentions_of_method hx hmention) ⟨(hp.method? hx).file,
      (hp.method? hx).owner⟩
  · obtain ⟨hstand, -⟩ := p.grows_resolve.newMethod hm hgiven
    simp only [Method.signatureNames, hstand.throws_eq, hstand.annotations_eq,
      hstand.innerAnnotations_eq, List.append_nil, List.map_nil] at hn
    obtain ⟨u, hu, rfl⟩ := List.mem_map.mp hn
    exact qualify_memberTypes (p.resolves_resolve.isPlain hm hgiven u hu) _

/-- **Resolved signatures stay as they are.** -/
theorem Undisturbed.qualifySignatures : p.resolve.qualifySignatures = p.resolve :=
  qualifySignatures_eq_self (fun _ _ hc _ hn => h.qualify_superName hp hc hn)
    (fun _ _ _ hf hc hlisted => h.qualify_field hp hf hc hlisted) fun _ _ hm _ hn =>
      h.qualify_signature hp hm hn

end

/-! ## Bodies -/

theorem Grounded.stubFile?_eq_iff {q : Program} (hp : p.Grounded) (h : p.Grows q) {id : MethodId}
    {m : Method} (hm : p.method? id = some m) :
    q.stubFile? = some m.file ↔ p.stubFile? = some m.file := by
  refine ⟨fun hq => ?_, h.stubFile⟩
  cases hstub : p.stubFile? with
  | some file =>
    rw [h.stubFile hstub] at hq
    exact hq
  | none =>
    obtain ⟨f, hf⟩ := exists_file?_of_lt (hp.method? hm).file
    obtain ⟨f', hf', hgrows⟩ := h.file hf
    obtain ⟨x, hx, hid⟩ := Option.map_eq_some_iff.mp hq
    obtain ⟨i, hi⟩ := List.mem_iff_getElem?.mp (List.mem_of_find?_eq_some hx)
    rw [Array.getElem?_toList] at hi
    have hindex := congrArg FileId.index (q.files_numbered i x hi)
    rw [hid] at hindex
    obtain rfl : f' = x := by
      rw [file?, hindex, hi] at hf'
      exact (Option.some.inj hf').symm
    -- The file was there before, with the same path, so it would have been found.
    have hpath : f.path.same stubPath = true := by
      have hsame : f'.path.same stubPath = true := by simpa using List.find?_some hx
      rwa [hgrows.same] at hsame
    have hmem : f ∈ p.files.toList := Array.mem_toList_iff.mpr (Array.mem_of_getElem? hf)
    simp only [stubFile?, fileByPath?, Option.map_eq_none_iff, List.find?_eq_none] at hstub
    exact absurd hpath (hstub f hmem)

theorem Grounded.resolvable_eq {q : Program} (hp : p.Grounded) (h : p.Grows q) :
    q.resolvable = p.resolvable := by
  obtain ⟨fresh, hsame, hfresh⟩ := h.methods
  let isResolvable (r : Program) (m : Method) : Bool := some m.file ≠ r.stubFile? && m.body.isSome
  have houtline : ∀ (r : Program) (ms : List Method),
    ((ms.map Method.outline).filter (isResolvable r)).map (·.id) =
      (ms.filter (isResolvable r)).map (·.id) := by
    intro r ms
    rw [List.filter_map, List.map_map]
    congr 1
    refine List.filter_congr fun m _ => ?_
    simp only [isResolvable, Method.outline, Function.comp_apply, Option.isSome_map]
    rfl
  have hnone : fresh.filter (isResolvable q) = [] := by
    refine List.filter_eq_nil_iff.mpr fun m hm => ?_
    obtain ⟨hlive, hnew⟩ := hfresh m hm
    simp [isResolvable, (h.newMethod hlive hnew).1.body_eq]
  have hold : p.methods.filter (isResolvable q) = p.methods.filter (isResolvable p) := by
    refine List.filter_congr fun m hm => ?_
    have hfile := hp.stubFile?_eq_iff h (method?_of_mem_methods hm)
    simp only [isResolvable, eq_comm (a := some m.file), ne_eq, hfile]
  calc q.resolvable = ((q.methods.map Method.outline).filter (isResolvable q)).map (·.id) :=
    (houtline q _).symm
    _ = ((p.methods ++ fresh).filter (isResolvable q)).map (·.id) := by rw [hsame, houtline]
    _ = (p.methods.filter (isResolvable p)).map (·.id) := by
      rw [List.filter_append, hnone, hold, List.append_nil]

theorem modifyMethod_body_eq_self {q : Program} {id : MethodId} {m : Method} {body : Stmt}
    (hm : q.method? id = some { m with body := some body }) :
    q.modifyMethod id (fun m => { m with body := some body }) = q := by
  have hslots : q.methodSlots.modify id.index (Option.map fun x => { x with body := some body }) =
      q.methodSlots := by
    refine Array.ext_getElem? fun i => ?_
    rw [Array.getElem?_modify]
    split
    · rename_i hi
      subst hi
      rw [slot_of_method? hm]
      rfl
    · rfl
  have hwith : ∀ {slots} hs, slots = q.methodSlots →
      ({ q with methodSlots := slots, slots_numbered := hs } : Program) = q := by
    rintro _ _ rfl
    rfl
  exact hwith _ hslots

end Program

namespace Program

variable {p : Program}

theorem Undisturbed.quiet (h : p.Undisturbed) : p.qualifySignatures.Quiet p.resolve where
  methods := by
    intro id m owner hm hnew howner
    refine h.methods m (List.mem_filterMap.mpr ⟨some m, ?_, rfl⟩) owner howner
    have hslots : p.qualifySignatures.methodSlots.size = p.methodSlots.size := by
      simp [Program.qualifySignatures]
    refine mem_drop_iff.mpr ⟨id.index, slot_of_method? hm, ?_⟩
    rw [← hslots]
    exact Nat.le_of_not_lt hnew
  chains := by
    intro id last superId hlast hsuper
    have hlt : superId.index < p.classes.size := by
      cases hc : p.resolve.class? id with
      | none => simp [chainLimit, ancestor?, superClass?, hc] at hlast
      | some c =>
        have hid : c.id = id := p.resolve.classes_numbered id.index c hc
        rw [← hid] at hlast
        exact h.chains c (Array.mem_toList_iff.mpr (Array.mem_of_getElem? hc)) last hlast
          superId hsuper
    obtain ⟨c, hc⟩ := exists_class?_of_lt hlt
    simp [class?_qualifySignatures, hc]

theorem Undisturbed.echoes (hp : p.Grounded) (h : p.Undisturbed) {id : MethodId} {m : Method}
    {body : Stmt} (hm : p.qualifySignatures.method? id = some m) (hbody : m.body = some body)
    (s : Resolution) (hdone : p.resolve.method? id =
      some { m with body := some (Resolve.stmt ⟨m.file, m.owner⟩
        (Resolve.parameterNames m) body s).1.1 }) :
    Resolve.Echoes p.qualifySignatures p.resolve
      (Resolve.stmt ⟨m.file, m.owner⟩ (Resolve.parameterNames m) body)
      (Resolve.stmt ⟨m.file, m.owner⟩ (Resolve.parameterNames m)
        (Resolve.stmt ⟨m.file, m.owner⟩ (Resolve.parameterNames m) body s).1.1) s := by
  obtain ⟨x, hx, hqualified⟩ : ∃ x, p.method? id = some x ∧ p.qualifyMethod x = m := by
    rw [method?_qualifySignatures] at hm
    exact Option.map_eq_some_iff.mp hm
  have hfile : x.file = m.file := by rw [← hqualified]; rfl
  have howner : x.owner = m.owner := by rw [← hqualified]; rfl
  have hxbody : x.body = some body := by rw [← hbody, ← hqualified]; rfl
  have hsite : (⟨m.file, m.owner⟩ : Site).IsIn p := by
    rw [← hfile, ← howner]
    exact ⟨(hp.method? hx).file, (hp.method? hx).owner⟩
  have hcalm : Site.Calm p.qualifySignatures p.resolve ⟨m.file, m.owner⟩ := by
    refine ⟨hp.qualifySignatures, h.quiet, hsite.file, fun o ho => ?_⟩
    simpa [Program.qualifySignatures] using hsite.owner o ho
  refine Resolve.echoes_stmt (Resolve.aims_wellAimed (method?_self hm)) hcalm [] body s
    (fun v hv name hname => ?_)
    fun v hv => h.firm hp (mem_methods_of_method? hdone) hsite hv
  have hvisit : v ∈ x.visits := by
    rw [Method.visits, hxbody]
    exact hv
  have hmention : name ∈ x.mentioned :=
    List.mem_append_right _ (List.mem_flatMap.mpr ⟨v, hvisit, hname⟩)
  refine h.steady hp ?_ hsite
  rw [← hfile, ← howner]
  exact mem_mentions_of_method hx hmention

end Program

namespace Resolve

variable {p q : Program} {s : Resolution} {id : MethodId} {m : Method} {body : Stmt}

/-- **The step.** Resolving a body again leaves the program as it is, and the same types of
variables behind. -/
theorem methodBody_again (hs : p.Resolves s.program)
    (hlater : (methodBody id s).2.program.Resolves q) (hm : s.program.method? id = some m)
    (hbody : m.body = some body)
    (hdone : q.method? id =
      some { m with body := some (stmt ⟨m.file, m.owner⟩ (parameterNames m) body s).1.1 })
    (hecho : Echoes p q (stmt ⟨m.file, m.owner⟩ (parameterNames m) body)
      (stmt ⟨m.file, m.owner⟩ (parameterNames m)
        (stmt ⟨m.file, m.owner⟩ (parameterNames m) body s).1.1) s) :
    (methodBody id ⟨q, s.localTypes⟩).2 = ⟨q, (methodBody id s).2.localTypes⟩ := by
  have hprogram : (stmt ⟨m.file, m.owner⟩ (parameterNames m) body s).2.program.Resolves q := by
    rw [methodBody_of_body hm hbody] at hlater
    exact (resolving_putBody hm hbody).resolves.trans hlater
  have hagain := hecho.again hs hprogram
  rw [methodBody_of_body (s := ⟨q, s.localTypes⟩) hdone rfl, methodBody_of_body hm hbody]
  let put (r : (Stmt × Names) × Resolution) : Resolution :=
    { r.2 with program := r.2.program.modifyMethod m.id fun m => { m with body := some r.1.1 } }
  refine (congrArg put hagain).trans ?_
  have hid := Program.id_of_method? hm
  simp only [put, hid, Program.modifyMethod_body_eq_self hdone]
  rfl

/-- **The run.** The bodies of the list are resolved again one after another, and the program stays
as it is. -/
theorem run_again {ids : List MethodId} (hnodup : ids.Nodup) (hs : p.Resolves s.program)
    (hq : (run ids s).program = q)
    (hecho : ∀ id ∈ ids, ∃ m body, s.program.method? id = some m ∧ m.body = some body ∧
      ∀ r : Resolution, q.method? id =
        some { m with body := some (stmt ⟨m.file, m.owner⟩ (parameterNames m) body r).1.1 } →
      Echoes p q (stmt ⟨m.file, m.owner⟩ (parameterNames m) body)
        (stmt ⟨m.file, m.owner⟩ (parameterNames m)
          (stmt ⟨m.file, m.owner⟩ (parameterNames m) body r).1.1) r) :
    (run ids ⟨q, s.localTypes⟩).program = q := by
  induction ids generalizing s with
  | nil => rfl
  | cons id rest ih =>
    obtain ⟨hid, hnodup⟩ := List.nodup_cons.mp hnodup
    obtain ⟨⟨m, body, hm, hbody, hfirst⟩, hrest⟩ := List.forall_mem_cons.mp hecho
    have hsteps := resolves_methodBody id s
    have hlater : (methodBody id s).2.program.Resolves q := hq ▸ resolves_run rest _
    have hgiven : (methodBody id s).2.program.HasGiven id :=
      Nat.lt_of_lt_of_le (Program.index_lt_of_method? hm) hsteps.grows.slots
    have hdone : q.method? id =
        some { m with body := some (stmt ⟨m.file, m.owner⟩ (parameterNames m) body s).1.1 } := by
      rw [← hq, run_cons, method?_run_of_not_mem hid hgiven]
      exact method?_methodBody_self hm hbody
    rw [run_cons, methodBody_again hs hlater hm hbody hdone (hfirst s hdone)]
    refine ih hnodup (hs.trans hsteps) hq fun other hother => ?_
    obtain ⟨m', body', hm', hbody', hnext⟩ := hrest other hother
    have hne : other ≠ id := by
      rintro rfl
      exact hid hother
    exact ⟨m', body', (method?_methodBody_of_ne hne (Program.index_lt_of_method? hm')).trans hm',
      hbody', hnext⟩

end Resolve

theorem Program.Undisturbed.resolve_resolve {p : Program} (hp : p.Grounded) (h : p.Undisturbed) :
    p.resolve.resolve = p.resolve := by
  have hsame : p.resolve.resolve =
      (Resolve.run p.qualifySignatures.resolvable ⟨p.resolve, []⟩).program := by
    change (Resolve.run p.resolve.qualifySignatures.resolvable
      { program := p.resolve.qualifySignatures }).program = _
    rw [h.qualifySignatures hp, hp.qualifySignatures.resolvable_eq p.grows_resolve]
  rw [hsame]
  refine Resolve.run_again (s := { program := p.qualifySignatures })
    p.qualifySignatures.nodup_resolvable (.refl _) rfl
    fun id hid => ?_
  obtain ⟨m, body, hm, hbody, -⟩ := mem_resolvable.mp hid
  exact ⟨m, body, hm, hbody, fun r hdone => h.echoes hp hm hbody r hdone⟩

/-- **Resolving twice is resolving once**, for every program of syntax trees in which nothing comes
in the way of what is looked up the second time. -/
theorem resolve_again_eq (trees : List (Path × Java.Tree × Origin))
    (h : (Program.ofTrees trees).Undisturbed) :
    (Program.ofTrees trees).resolve.resolve = (Program.ofTrees trees).resolve :=
  h.resolve_resolve (Program.grounded_ofTrees trees)

/-- Two classes that use the library in several ways, one of them over the class that it extends. -/
def twoClasses : List (Path × Java.Tree × Origin) :=
  [(⟨"A.java"⟩, Java.Tree.ofSource
      "import java.util.*; class A { double k() { var y = Math.PI; return Math.sqrt(y) + new Random().nextDouble(); } }",
      .project),
    (⟨"B.java"⟩, Java.Tree.ofSource "class B extends A { String s() { return k() + toString(); } }",
      .project)]

/-- They are resolved once and for all. -/
theorem resolve_twoClasses_again :
    (Program.ofTrees twoClasses).resolve.resolve = (Program.ofTrees twoClasses).resolve :=
  resolve_again_eq twoClasses (by decide +kernel)

/-- A class with a field of a type that is mentioned under a longer name in a body. -/
def lateMember : List (Path × Java.Tree × Origin) :=
  [(⟨"C.java"⟩, Java.Tree.ofSource "class C { Foo f; void m() { new C.Foo().bar(); } }", .project)]

/-- The first time the type of the field is left as it is. The body makes a stand-in for a member
class of its name, and the second time that one is found. -/
theorem resolve_lateMember_again :
    let p := Program.ofTrees lateMember
    (p.resolve.field? ⟨0⟩).map (·.type.type.name) = some "Foo" ∧
      (p.resolve.resolve.field? ⟨0⟩).map (·.type.type.name) = some "C.Foo" ∧
      p.resolve.resolve ≠ p.resolve := by
  have hfirst : ((Program.ofTrees lateMember).resolve.field? ⟨0⟩).map (·.type.type.name) =
      some "Foo" := by
    decide +kernel
  have hsecond : ((Program.ofTrees lateMember).resolve.resolve.field? ⟨0⟩).map (·.type.type.name) =
      some "C.Foo" := by
    decide +kernel
  refine ⟨hfirst, hsecond, fun hsame => ?_⟩
  rw [hsame, hfirst] at hsecond
  exact absurd hsecond (by decide)

end KernelLint
