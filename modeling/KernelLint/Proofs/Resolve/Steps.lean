import KernelLint.Proofs.Program.Lookup
import KernelLint.Resolve.Program
import Mathlib.Logic.Relation

/-!
# The steps of a resolution

What resolution does to a program once the signatures are qualified, said once: it hands out nodes
and adds stand-ins (`Adding`), and it puts resolved bodies in the place of the old ones
(`Resolving`). However deep in a body a name stands, looking it up is a sequence of additions
(`Resolve.Advances`). What resolution keeps is then proved for one step, and follows for all of
them.
-/

namespace KernelLint

/-- The file that holds the stand-ins. -/
structure SourceFile.IsStandIn (f : SourceFile) : Prop where
  path_eq : f.path = Program.stubPath
  package_eq : f.package = none
  imports_eq : f.imports = []
  origin_eq : f.origin = .library

/-- A stand-in for a class: a public class of which nothing is known but its name. -/
structure TypeDecl.IsStandIn (c : TypeDecl) : Prop where
  name_eq : c.name = Text.lastSegment c.qualifiedName
  dotted : Text.isDotted c.qualifiedName = true
  kind_eq : c.kind = .ordinary
  outer_eq : c.outer = none
  superName_eq : c.superName = none
  modifiers_eq : c.modifiers = { isPublic := true }
  nested_eq : c.nested = []
  isLocal_eq : c.isLocal = false

/-- A stand-in for a method: public and without a body. -/
structure Method.IsStandIn (m : Method) : Prop where
  body_eq : m.body = none
  result_isSome : m.result.isSome = true
  throws_eq : m.throws = []
  modifiers_eq : m.modifiers = { isPublic := true, isNative := m.modifiers.isNative }
  annotations_eq : m.annotations = []
  innerAnnotations_eq : m.innerAnnotations = []

/-- The names of the types that are known of members of the library, and of the unknown type. -/
def Library.memberTypes : List String :=
  ErasedType.unknown.name :: (resultTypes ++ staticFields).map (·.2.2)

/-- Nothing is known of the types in the signature but what is known of the library. -/
def Method.IsPlain (m : Method) : Prop :=
  ∀ u ∈ m.params.map (·.type) ++ m.result.toList, u.type.name ∈ Library.memberTypes

/-- A stand-in for a field: public, static and final, and without an initializer. -/
structure Field.IsStandIn (f : Field) : Prop where
  modifiers_eq : f.modifiers = { isPublic := true, isStatic := true, isFinal := true }
  init_eq : f.init = none

namespace Program

/-- One thing that resolution adds to a program. A class is added when there is none of its name,
and a field when its class has none of its name but the library is known to have it. -/
inductive Adding (p : Program) : Program → Prop
  | node : Adding p p.freshNode.2
  | file (hnone : p.stubFile? = none) : Adding p (p.addFile stubPath none [] .library).2
  | standInClass {c : TypeDecl} (hstand : c.IsStandIn) (hmethods : c.methods = [])
      (hfields : c.fields = [])
    (hnew : p.findClass? c.qualifiedName = none) (hfile : p.stubFile? = some c.file) :
      Adding p (p.addClass c).2
  | standInField {f : Field} {c : TypeDecl} (hstand : f.IsStandIn)
      (howner : p.class? f.owner = some c)
    (hnone : p.findField? f.owner f.name = none)
    (hknown : Library.staticFieldType? c.qualifiedName f.name = some f.type.type) :
      Adding p (p.addField f).2
  | standInMethod {m : Method} {owner : ClassId} {c : TypeDecl} (hstand : m.IsStandIn)
      (hplain : m.IsPlain)
    (howner : m.owner = some owner) (hclass : p.class? owner = some c) (hfile : m.file = c.file) :
    Adding p (p.addMethod m).2

/-- One change that resolution makes to a program: an addition, or another body for a method that
has one. -/
inductive Resolving (p : Program) : Program → Prop
  | adding {q : Program} (h : p.Adding q) : Resolving p q
  | body {id : MethodId} {m : Method} (hm : p.method? id = some m) (hbody : m.body.isSome = true)
      (body : Stmt) :
    Resolving p (p.modifyMethod id fun m => { m with body := some body })

/-- Additions one after another. -/
def Adds : Program → Program → Prop := Relation.ReflTransGen Adding

/-- Changes one after another. -/
def Resolves : Program → Program → Prop := Relation.ReflTransGen Resolving

variable {p q r : Program}

theorem Adds.refl (p : Program) : p.Adds p := Relation.ReflTransGen.refl

theorem Adds.trans (h : p.Adds q) (h' : q.Adds r) : p.Adds r := Relation.ReflTransGen.trans h h'

theorem Adding.adds (h : p.Adding q) : p.Adds q := Relation.ReflTransGen.single h

theorem Adds.resolves (h : p.Adds q) : p.Resolves q := by
  induction h with
  | refl => exact Relation.ReflTransGen.refl
  | tail _ hstep ih => exact Relation.ReflTransGen.tail ih (.adding hstep)

theorem Resolves.refl (p : Program) : p.Resolves p := Relation.ReflTransGen.refl

theorem Resolves.trans (h : p.Resolves q) (h' : q.Resolves r) :
    p.Resolves r := Relation.ReflTransGen.trans h h'

theorem Resolving.resolves (h : p.Resolving q) : p.Resolves q := Relation.ReflTransGen.single h

/-! ## Stand-ins -/

theorem adds_stubFile (p : Program) : p.Adds p.stubFile.2 := by
  unfold stubFile
  split
  · exact .refl p
  · rename_i hnone
    exact (Adding.file hnone).adds

theorem same_stubPath : stubPath.same stubPath = true := by decide

theorem stubFile?_stubFile (p : Program) : p.stubFile.2.stubFile? = some p.stubFile.1 := by
  unfold stubFile
  split
  · assumption
  · rename_i hnone
    have hfiles : p.files.toList.find? (·.path.same stubPath) = none := by
      simpa [stubFile?, fileByPath?] using hnone
    simp [addFile, pushFile, bump, stubFile?, fileByPath?, List.find?_append, hfiles, same_stubPath]

theorem adds_stubClass (p : Program) {name : String} (hdotted : Text.isDotted name = true) :
    p.Adds (p.stubClass name).2 := by
  unfold stubClass
  split
  · exact .refl p
  · rename_i hnone
    have hnew : p.stubFile.2.findClass? name = none := by
      rw [← hnone]
      unfold stubFile
      split <;> rfl
    refine p.adds_stubFile.trans (Adding.standInClass ?_ rfl rfl hnew p.stubFile?_stubFile).adds
    constructor <;> first | rfl | exact hdotted

theorem class?_of_findClass? {name : String} {c : TypeDecl} (h : p.findClass? name = some c) :
    p.class? c.id = some c ∧ c.qualifiedName = name := by
  have hmem : c ∈ p.classes.toList := List.mem_of_find?_eq_some h
  obtain ⟨i, hi⟩ := List.mem_iff_getElem?.mp hmem
  rw [Array.getElem?_toList] at hi
  refine ⟨?_, by simpa using List.find?_some h⟩
  rw [class?, p.classes_numbered i c hi]
  exact hi

theorem class?_stubClass (p : Program) (name : String) :
    ((p.stubClass name).2.class? (p.stubClass name).1).isSome := by
  unfold stubClass
  split
  · rename_i c hfound
    simp [(class?_of_findClass? hfound).1]
  · simp [addClass, class?, pushClass, bump]

theorem adds_classByName (p : Program) (name : String) : p.Adds (p.classByName name).2 := by
  unfold classByName
  split
  · exact .refl p
  · split
    · rename_i hdotted
      exact p.adds_stubClass hdotted
    · exact .refl p

theorem stubParameters_induction {P : Nat → List Parameter × Program → Prop} (p : Program)
    (hstart : P 0 ([], p)) (hstep : ∀ n found, P n found →
      P (n + 1) (found.1 ++ [stubParameter found.2.freshNode.1 n], found.2.freshNode.2))
    (arity : Nat) : P arity (p.stubParameters arity) := by
  induction arity with
  | zero => exact hstart
  | succ n ih =>
    rw [stubParameters, List.range_succ, List.foldl_append]
    exact hstep n _ ih

theorem adds_stubParameters (p : Program) (arity : Nat) : p.Adds (p.stubParameters arity).2 := by
  refine stubParameters_induction (P := fun _ found => p.Adds found.2) p (.refl p) ?_ arity
  intro n found h
  exact h.trans Adding.node.adds

theorem class?_stubParameters (p : Program) (arity : Nat) (id : ClassId) :
    (p.stubParameters arity).2.class? id = p.class? id := by
  refine stubParameters_induction (P := fun _ found => found.2.class? id = p.class? id) p
    rfl ?_ arity
  intro n found h
  exact h

theorem type_of_mem_stubParameters (p : Program) (arity : Nat) :
    ∀ x ∈ (p.stubParameters arity).1, x.type.type = ErasedType.unknown := by
  refine stubParameters_induction (P := fun _ found => ∀ x ∈ found.1,
    x.type.type = ErasedType.unknown) p ?_ ?_ arity
  · simp
  · intro n found h
    refine List.forall_mem_append.mpr ⟨h, ?_⟩
    intro x hx
    rw [List.mem_singleton.mp hx]
    rfl

theorem mem_memberTypes_of_resultType? (className name : String) :
    ((Library.resultType? className name).getD ErasedType.unknown).name ∈ Library.memberTypes := by
  cases htype : Library.resultType? className name with
  | none => exact List.mem_cons_self
  | some type =>
    obtain ⟨entry, hentry, rfl⟩ := Option.map_eq_some_iff.mp htype
    refine List.mem_cons_of_mem _ (List.mem_map.mpr ⟨entry, ?_, rfl⟩)
    exact List.mem_append_left _ (List.mem_of_find?_eq_some hentry)

theorem adds_stubMethod (p : Program) {owner : ClassId} {c : TypeDecl}
    (howner : p.class? owner = some c) (name : String) (arity : Nat) :
    p.Adds (p.stubMethod owner name arity).2 := by
  unfold stubMethod
  split
  · exact .refl p
  · simp only [addStubMethod, howner]
    have hclass : (p.stubParameters arity).2.freshNode.2.class? owner = some c :=
      (p.class?_stubParameters arity owner).trans howner
    refine ((p.adds_stubParameters arity).trans Adding.node.adds).trans
      (Adding.standInMethod ?_ ?_ rfl hclass rfl).adds
    · constructor <;> rfl
    · refine List.forall_mem_append.mpr ⟨fun u hu => ?_, fun u hu => ?_⟩
      · obtain ⟨x, hx, rfl⟩ := List.mem_map.mp hu
        rw [p.type_of_mem_stubParameters arity x hx]
        exact List.mem_cons_self
      · obtain rfl := List.mem_singleton.mp hu
        exact mem_memberTypes_of_resultType? ..

theorem adds_addStubField (p : Program) {owner : ClassId} {name : String} {type : ErasedType}
    {c : TypeDecl} (howner : p.class? owner = some c) (hnone : p.findField? owner name = none)
    (hknown : Library.staticFieldType? c.qualifiedName name = some type) :
    p.Adds (p.addStubField owner name type).2 := by
  refine Adding.node.adds.trans (Adding.standInField ?_ howner hnone hknown).adds
  constructor <;> rfl

/-! ## Looking for methods -/

theorem adds_stubClass_stubMethod (p : Program) {className : String}
    (hdotted : Text.isDotted className = true) (name : String) (arity : Nat) :
    p.Adds ((p.stubClass className).2.stubMethod (p.stubClass className).1 name arity).2 := by
  obtain ⟨c, hc⟩ := Option.isSome_iff_exists.mp (p.class?_stubClass className)
  exact (p.adds_stubClass hdotted).trans (adds_stubMethod _ hc name arity)

theorem exists_class?_of_isLibraryClass {id : ClassId} (h : p.isLibraryClass id = true) :
    ∃ c, p.class? id = some c := by
  unfold isLibraryClass at h
  cases hc : p.class? id with
  | none => simp [hc] at h
  | some c => exact ⟨c, rfl⟩

theorem dotted_of_outsideSuperName? {id : ClassId} {superName : String}
    (h : p.outsideSuperName? id = some superName) :
    Text.isDotted superName = true := by
  have hfilter := (Option.filter_eq_some_iff.mp h).2
  simp only [Bool.and_eq_true] at hfilter
  exact hfilter.2

theorem adds_findMethodUpTo (name : String) (arity n : Nat) (id : ClassId) (p : Program) :
    p.Adds (findMethodUpTo name arity n id p).2 := by
  induction n generalizing id with
  | zero => exact .refl p
  | succ n ih =>
    rw [findMethodUpTo]
    split
    · exact .refl p
    · split
      · rename_i hlibrary
        obtain ⟨c, hc⟩ := exists_class?_of_isLibraryClass hlibrary
        exact p.adds_stubMethod hc name arity
      · split
        · rename_i hsuper
          exact p.adds_stubClass_stubMethod (dotted_of_outsideSuperName? hsuper) name arity
        · split
          · exact ih _
          · exact .refl p

theorem adds_findMethodAmong (name : String) (arity : Nat) (ids : List ClassId) (p : Program) :
    p.Adds (findMethodAmong name arity ids p).2 := by
  induction ids generalizing p with
  | nil => exact .refl p
  | cons id rest ih =>
    have hfirst : p.Adds (p.findMethodIn id name arity).2 := adds_findMethodUpTo ..
    rw [findMethodAmong]
    split
    · rename_i heq
      rw [heq] at hfirst
      exact hfirst
    · rename_i heq
      rw [heq] at hfirst
      exact hfirst.trans (ih _)

theorem adds_objectMethod (p : Program) (name : String) (arity : Nat) :
    p.Adds (p.objectMethod name arity).2 := by
  unfold objectMethod
  split
  · exact p.adds_stubClass_stubMethod (by decide) name arity
  · exact .refl p

theorem adds_staticImportMethod (p : Program) (file : FileId) (name : String) (arity : Nat) :
    p.Adds (p.staticImportMethod file name arity).2 := by
  unfold staticImportMethod
  split
  · exact .refl p
  · rename_i owner _
    have hclass := p.adds_classByName owner
    split
    · rename_i heq
      rw [heq] at hclass
      exact hclass
    · rename_i heq
      rw [heq] at hclass
      exact hclass.trans (adds_findMethodUpTo ..)

end Program

/-! ## Resolution of bodies -/

namespace Resolve

/-- Whatever program it starts from, the computation only adds to it, and it leaves the types of
local variables alone. -/
structure Advances {α : Type} (x : Resolve α) : Prop where
  adds : ∀ s : Resolution, s.program.Adds (x s).2.program
  localTypes : ∀ s : Resolution, (x s).2.localTypes = s.localTypes

variable {α β : Type} {x : Resolve α} {f : α → Resolve β}

theorem Advances.pure (a : α) : Advances (pure a) := ⟨fun s => .refl s.program, fun _ => rfl⟩

theorem Advances.bind (hx : Advances x) (hf : ∀ a, Advances (f a)) : Advances (x >>= f) :=
  ⟨fun s => (hx.adds s).trans ((hf _).adds _),
    fun s => ((hf _).localTypes _).trans (hx.localTypes s)⟩

theorem Advances.get : Advances get := ⟨fun s => .refl s.program, fun _ => rfl⟩

theorem Advances.of_get {f : Resolution → Resolve α}
    (hf : ∀ s : Resolution, s.program.Adds (f s s).2.program ∧
      (f s s).2.localTypes = s.localTypes) :
    Advances (MonadState.get >>= f) :=
  ⟨fun s => (hf s).1, fun s => (hf s).2⟩

theorem Advances.onProgram {g : Program → α × Program} (hg : ∀ p : Program, p.Adds (g p).2) :
    Advances (Resolve.onProgram g) :=
  ⟨fun s => hg s.program, fun _ => rfl⟩

theorem Advances.orElse {first second : Resolve (Option α)} (hfirst : Advances first)
    (hsecond : Advances second) :
    Advances (Resolve.orElse first second) := by
  refine hfirst.bind fun answer => ?_
  cases answer with
  | some a => exact .pure _
  | none => exact hsecond

theorem advances_classByName (name : String) : Advances (classByName name) :=
  .onProgram (·.adds_classByName name)

theorem advances_objectClass : Advances objectClass :=
  .onProgram fun p => p.adds_stubClass (by decide)

theorem advances_classOfType (t : ErasedType) : Advances (classOfType t) := by
  unfold classOfType
  split
  · exact advances_objectClass.bind fun _ => .pure _
  · split
    · exact .pure _
    · exact advances_classByName _

theorem advances_superReceiver (owner : Option ClassId) : Advances (superReceiver owner) := by
  refine Advances.get.bind fun s => ?_
  split
  · exact .pure _
  · split
    · exact advances_classByName _
    · exact advances_objectClass.bind fun _ => .pure _

theorem advances_receiver (qualifier : Expr) (owner : Option ClassId) :
    Advances (receiver qualifier owner) := by
  unfold receiver
  split
  · exact .pure _
  · exact .pure _
  · exact advances_superReceiver owner
  · refine Advances.get.bind fun s => ?_
    split
    · exact .pure _
    · exact advances_classOfType _

theorem advances_classNamed (name : String) (site : Site) : Advances (classNamed name site) := by
  unfold classNamed
  split
  · exact .pure _
  · refine Advances.get.bind fun s => ?_
    split
    · exact .pure _
    · exact (advances_classByName _).bind fun _ => .pure _

theorem advances_simpleTarget (name : String) (names : Names) (site : Site) :
    Advances (simpleTarget name names site) := by
  refine Advances.get.bind fun s => ?_
  dsimp only
  split
  · exact .pure _
  · split
    · exact .pure _
    · exact advances_classNamed name site

theorem advances_memberTarget (id : ClassId) (name : String) : Advances (memberTarget id name) := by
  refine Advances.of_get fun s => ?_
  cases hfield : s.program.findField? id name with
  | some f => exact ⟨.refl _, rfl⟩
  | none =>
    cases hclass : s.program.class? id with
    | none => exact ⟨.refl _, rfl⟩
    | some c =>
      cases hknown : Library.staticFieldType? c.qualifiedName name with
      | none =>
        simp only [hknown]
        exact ⟨.refl _, rfl⟩
      | some type =>
        simp only [hknown]
        exact ⟨s.program.adds_addStubField hclass hfield hknown, rfl⟩

theorem advances_memberOf (qualifier : Expr) (name text : String) (site : Site) :
    Advances (memberOf qualifier name text site) := by
  refine (advances_receiver qualifier site.owner).bind fun found => ?_
  cases found with
  | some id => exact advances_memberTarget id name
  | none =>
    dsimp only
    split
    · exact (advances_classByName _).bind fun _ => .pure _
    · exact .pure _

theorem advances_nameTarget (name : String) (qualifier : Option Expr) (text : String)
    (names : Names) (site : Site) : Advances (nameTarget name qualifier text names site) := by
  cases qualifier with
  | none => exact advances_simpleTarget name names site
  | some q => exact advances_memberOf q name text site

theorem advances_callTarget (name : String) (qualifier : Option Expr) (arity : Nat) (site : Site) :
    Advances (callTarget name qualifier arity site) := by
  have hobject : Advances (Resolve.onProgram (·.objectMethod name arity)) :=
    .onProgram (·.adds_objectMethod name arity)
  cases qualifier with
  | none =>
    refine Advances.get.bind fun s => .orElse ?_ (.orElse ?_ hobject)
    · exact .onProgram (Program.adds_findMethodAmong name arity _)
    · exact .onProgram (·.adds_staticImportMethod ..)
  | some q =>
    refine (advances_receiver q site.owner).bind fun found => ?_
    cases found with
    | none => exact .pure _
    | some id => exact .orElse (.onProgram (Program.adds_findMethodUpTo name arity _ id)) hobject

theorem advances_qualifyUse (u : TypeUse) (site : Site) : Advances (qualifyUse u site) :=
  Advances.get.bind fun _ => .pure _

theorem advances_typeOfOption (e : Option Expr) (site : Site) : Advances (typeOfOption e site) :=
  Advances.get.bind fun _ => .pure _

end Resolve

end KernelLint
