import KernelLint.Proofs.Resolve.Echo
import KernelLint.Proofs.Resolve.Signature
import KernelLint.Proofs.Syntax.Parts

/-!
# Where types are left out

The word `var` leaves the type of a variable to be inferred: that of a declared variable, of a
resource and of the variable of a for-each loop (`Visit.inferring`). All other types in a body are
taken as they are written (`Visit.fixedTypes`), those of the parameters of lambdas and handlers
among them. A program that has `var` for no type of the second sort, nor for one outside its bodies,
keeps this property whatever is added to it while it is resolved.
-/

namespace KernelLint

/-! ## In bodies -/

/-- The types at a stop of the walk that are taken as they are written. -/
def Visit.fixedTypes : Visit → List TypeUse
  | .expr (.create _ type _ _) => [type]
  | .expr (.cast _ type _) => [type]
  | .expr (.newArray _ element _ _) => element.toList
  | .expr (.lambda _ params _) => params.map Local.type
  | .stmt (.attempt _ _ _ clauses _) => clauses.map (·.param.type)
  | _ => []

/-- The variables at a stop of which the type may be left out, each with what is inferred for it
from the types of expressions. -/
def Visit.inferring : Visit → List (Local × ((Expr → Option ErasedType) → Option ErasedType))
  | .stmt (.declare _ locals) => locals.map fun l => (l, fun typing => l.init.bind typing)
  | .stmt (.forEach _ item iterable _) =>
      [(item, fun typing => (typing iterable).bind ErasedType.entry?)]
  | _ => []

def Visit.FixesNoVar (v : Visit) : Prop := ∀ u ∈ v.fixedTypes, u.type.name ≠ "var"

instance (v : Visit) : Decidable v.FixesNoVar :=
  inferInstanceAs (Decidable (∀ u ∈ v.fixedTypes, u.type.name ≠ "var"))

/-- **Each variable of a body** has its type fixed or inferred at some stop. -/
theorem Stmt.exists_introduced {b : Stmt} {l : Local} (h : Visit.localVar l ∈ b.visits) :
    ∃ v ∈ b.visits, l.type ∈ v.fixedTypes ∨ ∃ infer, (l, infer) ∈ v.inferring := by
  rcases Relation.ReflTransGen.cases_tail (Visit.mem_walk (v := .stmt b).mp h) with hsame | ⟨v, hv,
    hpart⟩
  · cases hsame
  · refine ⟨v, Visit.mem_walk (v := .stmt b).mpr hv, ?_⟩
    clear hv h
    cases v with
    | expr e =>
      left
      cases e with
      | lambda head params body => exact List.mem_map_of_mem (by simpa [Visit.parts] using hpart)
      | _ => simp [Visit.parts] at hpart
    | stmt s =>
      cases s with
      | declare head locals =>
        exact .inr ⟨_, List.mem_map_of_mem
          (f := fun l : Local => (l, fun typing => l.init.bind typing))
          (by simpa [Visit.parts] using hpart)⟩
      | forEach head item iterable body =>
        obtain rfl : l = item := by simpa [Visit.parts] using hpart
        exact .inr ⟨_, List.mem_cons_self⟩
      | attempt head resources body clauses last =>
        obtain ⟨clause, hclause, rfl⟩ : ∃ clause ∈ clauses, l = clause.param := by
          simpa [Visit.parts] using hpart
        exact .inl (List.mem_map_of_mem (f := fun clause : Handler => clause.param.type) hclause)
      | _ => simp [Visit.parts] at hpart
    | localVar l' =>
      cases l'
      simp [Visit.parts] at hpart
    | localClass id => cases hpart

theorem Method.exists_introduced {m : Method} {l : Local} (h : Visit.localVar l ∈ m.visits) :
    ∃ v ∈ m.visits, l.type ∈ v.fixedTypes ∨ ∃ infer, (l, infer) ∈ v.inferring := by
  unfold Method.visits at h ⊢
  cases hbody : m.body with
  | none =>
    rw [hbody] at h
    cases h
  | some b =>
    rw [hbody] at h
    exact Stmt.exists_introduced h

/-! ## In programs -/

/-- In the signature and the body of the method, `var` stands only where a type is inferred. -/
structure Method.InfersVar (m : Method) : Prop where
  signature : ∀ u ∈ m.params.map (·.type) ++ m.result.toList, u.type.name ≠ "var"
  body : ∀ v ∈ m.visits, v.FixesNoVar

instance (m : Method) : Decidable m.InfersVar :=
  decidable_of_iff ((∀ u ∈ m.params.map (·.type) ++ m.result.toList, u.type.name ≠ "var") ∧
    ∀ v ∈ m.visits, v.FixesNoVar)
    ⟨fun h => ⟨h.1, h.2⟩, fun h => ⟨h.signature, h.body⟩⟩

structure TypeDecl.IsNotVar (c : TypeDecl) : Prop where
  named : c.qualifiedName ≠ "var"
  extended : c.superName ≠ some "var"

instance (c : TypeDecl) : Decidable c.IsNotVar :=
  decidable_of_iff (c.qualifiedName ≠ "var" ∧ c.superName ≠ some "var")
    ⟨fun h => ⟨h.1, h.2⟩, fun h => ⟨h.named, h.extended⟩⟩

namespace Program

/-- In the whole program, `var` stands only where a type is inferred. -/
structure InfersVar (p : Program) : Prop where
  classes : Numbered (fun _ c => c.IsNotVar) p.classes
  methods : Numbered (fun _ slot => ∀ m ∈ slot, m.InfersVar) p.methodSlots
  fields : Numbered (fun _ f => f.type.type.name ≠ "var") p.fields

instance (p : Program) : Decidable p.InfersVar :=
  decidable_of_iff ((∀ c ∈ p.classes.toList, c.IsNotVar) ∧
    (∀ slot ∈ p.methodSlots.toList, ∀ m ∈ slot, m.InfersVar) ∧
      ∀ f ∈ p.fields.toList, f.type.type.name ≠ "var") <| by
    simp only [Array.mem_toList_iff, Array.mem_iff_getElem?, forall_exists_index]
    exact ⟨fun ⟨hclasses, hmethods, hfields⟩ =>
      ⟨fun i c => hclasses c i, fun i slot => hmethods slot i, fun i f => hfields f i⟩,
      fun h => ⟨fun c i => h.classes i c, fun slot i => h.methods i slot, fun f i => h.fields i f⟩⟩

variable {p q : Program} {site : Site}

theorem InfersVar.class? (h : p.InfersVar) {id : ClassId} {c : TypeDecl}
    (hc : p.class? id = some c) : c.IsNotVar :=
  h.classes id.index c hc

theorem InfersVar.field? (h : p.InfersVar) {id : FieldId} {f : Field} (hf : p.field? id = some f) :
    f.type.type.name ≠ "var" :=
  h.fields id.index f hf

theorem InfersVar.method? (h : p.InfersVar) {id : MethodId} {m : Method}
    (hm : p.method? id = some m) : m.InfersVar :=
  h.methods id.index (some m) (slot_of_method? hm) m rfl

theorem InfersVar.modifyClass (h : p.InfersVar) (id : ClassId) {f : TypeDecl → TypeDecl}
    (hsame : ∀ c, (f c).qualifiedName = c.qualifiedName ∧ (f c).superName = c.superName) :
    (p.modifyClass id f).InfersVar := by
  refine ⟨h.classes.modify (fun i c hc => ?_) id.index, h.methods, h.fields⟩
  obtain ⟨hnamed, hextended⟩ := hsame c
  exact ⟨by simpa only [hnamed] using hc.named, by simpa only [hextended] using hc.extended⟩

theorem InfersVar.addClass (h : p.InfersVar) {c : TypeDecl} (hc : c.IsNotVar) :
    (p.addClass c).2.InfersVar := by
  have hlinked : (p.linkClass ⟨p.classes.size⟩ c).InfersVar := by
    unfold Program.linkClass
    split
    · exact h.modifyClass _ fun _ => ⟨rfl, rfl⟩
    · exact ⟨h.classes, h.methods, h.fields⟩
  exact ⟨hlinked.classes.push ⟨hc.named, hc.extended⟩, hlinked.methods, hlinked.fields⟩

theorem InfersVar.addField (h : p.InfersVar) {f : Field} (hf : f.type.type.name ≠ "var") :
    (p.addField f).2.InfersVar := by
  have hlisted :=
      h.modifyClass f.owner (f := fun c => { c with fields := c.fields ++ [⟨p.fields.size⟩] })
      fun _ => ⟨rfl, rfl⟩
  exact ⟨hlisted.classes, hlisted.methods, hlisted.fields.push hf⟩

theorem InfersVar.addMethod (h : p.InfersVar) {m : Method} (hm : m.InfersVar) :
    (p.addMethod m).2.InfersVar := by
  have hlisted : (p.relinkMethod m (· ++ [⟨p.methodSlots.size⟩])).InfersVar := by
    unfold Program.relinkMethod
    split
    · exact h.modifyClass _ fun _ => ⟨rfl, rfl⟩
    · exact h
  refine ⟨hlisted.classes, hlisted.methods.push ?_, hlisted.fields⟩
  rintro x ⟨⟩
  exact ⟨hm.signature, hm.body⟩

theorem ne_var_of_mem_memberTypes {name : String} (h : name ∈ Library.memberTypes) :
    name ≠ "var" := by
  rintro rfl
  exact absurd h (by decide +kernel)

/-- **The step.** What is added to a program has `var` for no type. -/
theorem InfersVar.adding (h : p.InfersVar) (hstep : p.Adding q) : q.InfersVar := by
  cases hstep with
  | node => exact ⟨h.classes, h.methods, h.fields⟩
  | file _ => exact ⟨h.classes, h.methods, h.fields⟩
  | @standInClass c hstand _ _ _ _ =>
    refine h.addClass ⟨?_, by simp [hstand.superName_eq]⟩
    intro hvar
    have hdotted := hstand.dotted
    rw [hvar] at hdotted
    exact absurd hdotted (by decide)
  | @standInField f c _ _ _ hknown =>
    apply h.addField
    obtain ⟨entry, hentry, htype⟩ := Option.map_eq_some_iff.mp hknown
    apply ne_var_of_mem_memberTypes
    rw [← htype]
    refine List.mem_cons_of_mem _ (List.mem_map.mpr ⟨entry, ?_, rfl⟩)
    exact List.mem_append_right _ (List.mem_of_find?_eq_some hentry)
  | standInMethod hstand hplain _ _ _ =>
    refine h.addMethod ⟨fun u hu => ne_var_of_mem_memberTypes (hplain u hu), ?_⟩
    rw [Method.visits, hstand.body_eq]
    exact List.forall_mem_nil _

theorem InfersVar.adds (h : p.InfersVar) (hsteps : p.Adds q) : q.InfersVar := by
  induction hsteps with
  | refl => exact h
  | tail _ hstep ih => exact ih.adding hstep

theorem InfersVar.putBody (h : p.InfersVar) (id : MethodId) {body : Stmt}
    (hbody : ∀ v ∈ body.visits, v.FixesNoVar) :
    (p.modifyMethod id fun m => { m with body := some body }).InfersVar := by
  refine ⟨h.classes, h.methods.modify (fun i slot hslot m hm => ?_) id.index, h.fields⟩
  obtain ⟨x, hx, rfl⟩ := Option.map_eq_some_iff.mp hm
  exact ⟨(hslot x hx).signature, hbody⟩

theorem qualifyUse_eq_var_iff (hp : p.Grounded) (u : TypeUse) (site : Site) :
    (p.qualifyUse u site).type.name = "var" ↔ u.type.name = "var" := by
  constructor
  · exact Resolve.eq_var_of_qualify hp
  · intro hvar
    rw [Program.qualifyUse, Program.qualifyType, hvar]
    exact Resolve.qualify_var p site

theorem InfersVar.qualifySignatures (h : p.InfersVar) (hp : p.Grounded) :
    p.qualifySignatures.InfersVar := by
  refine ⟨h.classes.map fun i c hc => ⟨hc.named, ?_⟩, h.methods.map fun i slot hslot m hm => ?_,
    h.fields.map fun i f hf => ?_⟩
  · intro hvar
    obtain ⟨name, hname, hqualified⟩ := Option.map_eq_some_iff.mp hvar
    refine hc.extended ?_
    rw [hname, Resolve.eq_var_of_qualify hp hqualified]
  · obtain ⟨x, hx, rfl⟩ := Option.map_eq_some_iff.mp hm
    have hx := hslot x hx
    refine ⟨?_, hx.body⟩
    intro u hu
    have hmem : u ∈ (x.params.map (·.type) ++ x.result.toList).map
        (p.qualifyUse · ⟨x.file, x.owner⟩) := by
      simpa [qualifyMethod, Option.toList_map] using hu
    obtain ⟨w, hw, rfl⟩ := List.mem_map.mp hmem
    rw [Ne, qualifyUse_eq_var_iff hp]
    exact hx.signature w hw
  · unfold qualifyField
    split
    · split
      · rw [Ne, qualifyUse_eq_var_iff hp]
        exact hf
      · exact hf
    · exact hf

end Program

/-! ## While a program is resolved -/

/-- Nothing that is known has the type `var`. -/
structure Resolution.InfersVar (s : Resolution) : Prop where
  program : s.program.InfersVar
  locals : ∀ entry ∈ s.localTypes, entry.2.name ≠ "var"

namespace Resolution.InfersVar

variable {s : Resolution}

theorem targetType? (h : s.InfersVar) {d : Declaration} {t : ErasedType}
    (ht : s.targetType? d = some t) :
    t.name ≠ "var" := by
  cases d with
  | localVar node =>
    obtain ⟨before, after, hsplit, -⟩ := List.lookup_eq_some_iff.mp ht
    apply h.locals (node, t)
    rw [hsplit]
    exact List.mem_append_right _ List.mem_cons_self
  | parameter method i =>
    obtain ⟨m, hm, hparam⟩ := Option.bind_eq_some_iff.mp ht
    obtain ⟨x, hx, rfl⟩ := Option.map_eq_some_iff.mp hparam
    apply (h.program.method? hm).signature x.type
    exact List.mem_append_left _ (List.mem_map_of_mem (List.mem_of_getElem? hx))
  | field id =>
    obtain ⟨f, hf, rfl⟩ := Option.map_eq_some_iff.mp ht
    exact h.program.field? hf
  | type id =>
    obtain ⟨c, hc, rfl⟩ := Option.map_eq_some_iff.mp ht
    exact (h.program.class? hc).named
  | method id => cases ht

theorem selfType? (h : s.InfersVar) {owner : Option ClassId} {isSuper : Bool} {t : ErasedType}
    (ht : s.selfType? owner isSuper = some t) : t.name ≠ "var" := by
  obtain ⟨c, hc, htype⟩ := Option.bind_eq_some_iff.mp ht
  obtain ⟨o, -, hclass⟩ := Option.bind_eq_some_iff.mp hc
  have hnone := h.program.class? hclass
  cases isSuper with
  | true =>
    obtain ⟨name, hname, rfl⟩ := Option.map_eq_some_iff.mp htype
    rintro rfl
    exact hnone.extended hname
  | false =>
    cases htype
    exact hnone.named

theorem combine_ne_var {l r : ErasedType} (hl : l.name ≠ "var") (hr : r.name ≠ "var") :
    (l.combine r).name ≠ "var" := by
  unfold ErasedType.combine
  split
  · decide
  · split
    · split <;> assumption
    · exact hl

theorem entry?_ne_var {t entry : ErasedType} (ht : t.name ≠ "var")
    (hentry : t.entry? = some entry) : entry.name ≠ "var" := by
  unfold ErasedType.entry? at hentry
  split at hentry
  · cases hentry
  · cases hentry
    exact ht

/-- **No expression has the type `var`** if none of the types in it is fixed as `var`. -/
theorem typeOf? (h : s.InfersVar) (owner : Option ClassId) :
    (e : Expr) → (∀ v ∈ e.visits, v.FixesNoVar) →
    ∀ t, s.typeOf? owner e = some t → t.name ≠ "var"
  | .literal _ kind, _, t, ht => by
    cases kind <;> cases ht <;> decide
  | .self .., _, t, ht => h.selfType? ht
  | .name _ _ _ (some target), _, t, ht => by
    rw [Resolution.typeOf?] at ht
    exact h.targetType? ht
  | .name _ id (some qualifier) none, hfixed, t, ht => by
    rw [Resolution.typeOf?] at ht
    split at ht
    · obtain ⟨u, -, hu⟩ := Option.bind_eq_some_iff.mp ht
      split at hu
      · cases hu
        decide
      · cases hu
    · cases ht
  | .call _ _ _ _ target, _, t, ht => by
    obtain ⟨m, hm, hresult⟩ := Option.bind_eq_some_iff.mp ht
    obtain ⟨id, -, hm⟩ := Option.bind_eq_some_iff.mp hm
    obtain ⟨u, hu, rfl⟩ := Option.map_eq_some_iff.mp hresult
    exact (h.program.method? hm).signature u (List.mem_append_right _ (by simp [hu]))
  | .create _ type _ _, hfixed, t, ht => by
    cases ht
    exact hfixed _ List.mem_cons_self type List.mem_cons_self
  | .cast _ type _, hfixed, t, ht => by
    cases ht
    exact hfixed _ List.mem_cons_self type List.mem_cons_self
  | .newArray _ element _ _, hfixed, t, ht => by
    obtain ⟨u, hu, rfl⟩ := Option.map_eq_some_iff.mp ht
    exact hfixed _ List.mem_cons_self u (by simp [Visit.fixedTypes, hu])
  | .paren _ inner, hfixed, t, ht => by
    rw [Resolution.typeOf?] at ht
    exact typeOf? h owner inner (fun v hv => hfixed v (List.mem_cons_of_mem _ hv)) t ht
  | .assign _ _ target value, hfixed, t, ht => by
    rw [Resolution.typeOf?] at ht
    exact typeOf? h owner target (fun v hv =>
      hfixed v (List.mem_cons_of_mem _ (List.mem_append_left _ hv))) t ht
  | .unary _ op operand _, hfixed, t, ht => by
    rw [Resolution.typeOf?] at ht
    split at ht
    · cases ht
      decide
    · exact typeOf? h owner operand (fun v hv => hfixed v (List.mem_cons_of_mem _ hv)) t ht
  | .binary _ op left right, hfixed, t, ht => by
    rw [Resolution.typeOf?] at ht
    split at ht
    · cases ht
      decide
    · obtain ⟨l, hl, rfl⟩ := Option.map_eq_some_iff.mp ht
      have hleft := typeOf? h owner left
        (fun v hv => hfixed v (List.mem_cons_of_mem _ (List.mem_append_left _ hv))) l hl
      split
      · rename_i r hr
        have hright := typeOf? h owner right
          (fun v hv => hfixed v (List.mem_cons_of_mem _ (List.mem_append_right _ hv))) r hr
        exact combine_ne_var hleft hright
      · exact hleft
  | .conditional _ c whenTrue whenFalse, hfixed, t, ht => by
    rw [Resolution.typeOf?] at ht
    refine typeOf? h owner whenTrue (fun v hv => hfixed v ?_) t ht
    exact List.mem_cons_of_mem _ (List.mem_append_left _ (List.mem_append_right _ hv))
  | .index _ array position, hfixed, t, ht => by
    obtain ⟨u, hu, hentry⟩ := Option.bind_eq_some_iff.mp ht
    have harray := typeOf? h owner array
      (fun v hv => hfixed v (List.mem_cons_of_mem _ (List.mem_append_left _ hv))) u hu
    exact entry?_ne_var harray hentry

end Resolution.InfersVar

end KernelLint
