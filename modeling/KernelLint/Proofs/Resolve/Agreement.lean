import KernelLint.Java.Source
import KernelLint.Proofs.Java.Reading
import KernelLint.Proofs.Resolve.Frame
import KernelLint.Proofs.Resolve.Pairing
import KernelLint.Proofs.Resolve.Signature
import KernelLint.Proofs.Resolve.Targets

/-!
# Two typings

The type of an expression is told twice: while its body is resolved, from the tables kept on the
side, and afterwards, from the program alone. Whatever the program answers afterwards, the tables at
the end of the body answer as well, for all expressions but those that stand for `super`. There the
program answers the class itself, and the tables the class that it extends.
-/

namespace KernelLint

/-- Does the expression stand for `super`: by itself, in parentheses, or as something that is
assigned to? -/
def Expr.standsForSuper : Expr → Bool
  | .self _ isSuper => isSuper
  | .paren _ inner => inner.standsForSuper
  | .assign _ _ target _ => target.standsForSuper
  | _ => false

/-! ## Programs that are read -/

theorem Method.Alike.sameGist {m m' : Method} (h : m.Alike m') : SameGist m.visits m'.visits := by
  obtain ⟨-, -, -, -, -, -, hbody⟩ := h
  rw [Method.visits, Method.visits]
  generalize m.body = body, m'.body = body' at hbody
  cases hbody with
  | none => rfl
  | some hbody =>
    rcases hbody with rfl | hbody
    · rfl
    · exact Stmt.sameGist _ hbody

namespace Program

variable {p : Program}

/-- A program as it is made from syntax trees: trees are read and what was read is resolved, in any
order. The trees are arbitrary, so they can be those of any source texts, whichever way these are
parsed. -/
inductive IsRead : Program → Prop
  | empty : IsRead .empty
  | addTree {p : Program} (h : IsRead p) (path : Path) (root : Java.Tree) (origin : Origin) :
    IsRead (p.addTree path root origin).2
  | resolve {p : Program} (h : IsRead p) : IsRead p.resolve

theorem IsRead.grounded (h : p.IsRead) : p.Grounded := by
  induction h with
  | empty => exact grounded_empty
  | addTree _ path root origin ih => exact ih.addTree path root origin
  | resolve _ ih => exact ih.qualifySignatures.resolves (resolves_resolve _)

theorem Tidy.resolve (h : p.Tidy) : p.resolve.Tidy := by
  intro id m hm
  by_cases hgiven : p.qualifySignatures.HasGiven id
  · obtain ⟨m', hm', -⟩ := p.grows_resolve.method?_of_hasGiven hm hgiven
    rw [method?_qualifySignatures] at hm'
    obtain ⟨x, hx, -⟩ := Option.map_eq_some_iff.mp hm'
    obtain ⟨m'', hm'', halike⟩ := alike_method?_resolve hx
    obtain rfl := Option.some.inj (hm''.symm.trans hm)
    exact (h id x hx).of_sameGist halike.sameGist
  · rw [Method.visits, (p.grows_resolve.newMethod hm hgiven).1.body_eq]
    exact ⟨List.forall_mem_nil _, List.nodup_nil⟩

theorem IsRead.tidy (h : p.IsRead) : p.Tidy := by
  induction h with
  | empty => exact tidy_empty
  | addTree _ path root origin ih => exact ih.addTree path root origin
  | resolve _ ih => exact ih.resolve

theorem keepsClasses_resolve (p : Program) : p.KeepsClasses p.resolve := by
  have hqualified : p.KeepsClasses p.qualifySignatures :=
    keepsClasses_of_map (f := fun _ => p.qualifyClass)
      (fun _ _ => ⟨rfl, rfl⟩) p.class?_qualifySignatures
  exact hqualified.trans p.grows_resolve.keepsClasses

theorem Housed.resolve (h : p.Housed) : p.resolve.Housed := by
  refine h.later p.keepsClasses_resolve fun id m hm ⟨cls, hcls⟩ => ?_
  by_cases hgiven : p.qualifySignatures.HasGiven id
  · obtain ⟨m', hm', -⟩ := p.grows_resolve.method?_of_hasGiven hm hgiven
    rw [method?_qualifySignatures] at hm'
    obtain ⟨x, hx, -⟩ := Option.map_eq_some_iff.mp hm'
    obtain ⟨m'', hm'', halike⟩ := alike_method?_resolve hx
    obtain rfl := Option.some.inj (hm''.symm.trans hm)
    exact ⟨x, hx, by rw [halike.same], fun _ hother => halike.sameGist.localClass_mem hother⟩
  · rw [Method.visits, (p.grows_resolve.newMethod hm hgiven).1.body_eq] at hcls
    cases hcls

theorem IsRead.housed (h : p.IsRead) : p.Housed := by
  induction h with
  | empty => exact housed_empty
  | addTree _ path root origin ih => exact ih.addTree path root origin
  | resolve _ ih => exact ih.resolve

end Program

/-! ## What stands for `super` -/

theorem Program.typeOf?_of_super (q : Program) (m : Method) : (e : Expr) → e.standsForSuper = true →
    q.typeOf? m e = (q.classOf? m).map (·.type)
  | .self .., _ => rfl
  | .paren _ inner, hsuper => q.typeOf?_of_super m inner hsuper
  | .assign _ _ target _, hsuper => q.typeOf?_of_super m target hsuper

theorem Resolution.typeOf?_of_super (s : Resolution) (owner : Option ClassId) :
    (e : Expr) → e.standsForSuper = true →
    s.typeOf? owner e = s.selfType? owner true
  | .self _ isSuper, hsuper => by
    obtain rfl : isSuper = true := hsuper
    rfl
  | .paren _ inner, hsuper => s.typeOf?_of_super owner inner hsuper
  | .assign _ _ target _, hsuper => s.typeOf?_of_super owner target hsuper

/-! ## From the program to the tables -/

/-- The state knows about the method what the program knows later. -/
structure Resolution.Backs (s : Resolution) (q : Program) (m : Method) : Prop where
  grows : s.program.Grows q
  method : s.program.method? m.id = some m
  owner : ∀ o ∈ m.owner, ∃ c, s.program.class? o = some c
  locals : ∀ node l, Program.local? m node = some l → s.localType? node = some l.type.type

namespace Resolution.Backs

variable {s : Resolution} {q : Program} {m : Method}

theorem targetType? (h : s.Backs q m) {head : Excerpt} {id : String} {qualifier : Option Expr}
    {d : Declaration} (haimed : (Expr.name head id qualifier (some d)).WellAimed s.program)
    {t : ErasedType} (ht : q.declaredType? m d = some t) : s.targetType? d = some t := by
  cases d with
  | localVar node =>
    obtain ⟨l, hl, rfl⟩ := Option.map_eq_some_iff.mp ht
    exact h.locals node l hl
  | parameter method i =>
    obtain ⟨x, hx, -⟩ := haimed
    have hparams : ∃ y, (if method = m.id then some m else q.method? method) = some y ∧
        y.params = x.params := by
      split
      · rename_i heq
        subst heq
        exact ⟨m, rfl, congrArg Method.params (Option.some.inj (h.method.symm.trans hx))⟩
      · obtain ⟨y, hy, hsame, -⟩ := h.grows.method?_of_some hx
        exact ⟨y, hy, by rw [hsame]⟩
    obtain ⟨y, hy, hsame⟩ := hparams
    simp only [Program.declaredType?, hy, Option.bind_some, hsame] at ht
    simp only [Resolution.targetType?, hx, Option.bind_some, ht]
  | field field =>
    obtain ⟨f, hf, -⟩ := haimed
    simp only [Program.declaredType?, h.grows.field hf] at ht
    simp only [Resolution.targetType?, hf, ht]
  | type type =>
    obtain ⟨c, hc⟩ := haimed
    obtain ⟨c', hc', hgrows⟩ := h.grows.type hc
    simp only [Program.declaredType?, hc', Option.map_some] at ht
    simp only [Resolution.targetType?, hc, Option.map_some, ← ht, TypeDecl.type,
      hgrows.qualifiedName_eq]
  | method method => cases ht

theorem class? (h : s.Backs q m) {c : TypeDecl} (hc : q.classOf? m = some c) :
    ∃ c', m.owner.bind s.program.class? = some c' ∧ c'.Grows c := by
  obtain ⟨o, ho, hclass⟩ := Option.bind_eq_some_iff.mp hc
  obtain ⟨c', hc'⟩ := h.owner o ho
  obtain ⟨c'', hc'', hgrows⟩ := h.grows.type hc'
  obtain rfl := Option.some.inj (hc''.symm.trans hclass)
  exact ⟨c', by rw [ho, Option.bind_some, hc'], hgrows⟩

theorem typeOf?_super (h : s.Backs q m) {e : Expr} (hsuper : e.standsForSuper = true) {c : TypeDecl}
    (hc : q.classOf? m = some c) :
    q.typeOf? m e = some c.type ∧ s.typeOf? m.owner e = c.superName.map (⟨·, 0⟩) := by
  obtain ⟨c', hc', hgrows⟩ := h.class? hc
  constructor
  · rw [Program.typeOf?_of_super q m e hsuper, hc, Option.map_some]
  · rw [s.typeOf?_of_super m.owner e hsuper, Resolution.selfType?, hc', hgrows.superName_eq]
    rfl

/-- **What the program answers, the tables answer**, for all that does not stand for `super`. -/
theorem typeOf? (h : s.Backs q m) : (e : Expr) →
    (∀ x, Visit.expr x ∈ e.visits → x.WellAimed s.program) →
    e.standsForSuper = false → ∀ t, q.typeOf? m e = some t → s.typeOf? m.owner e = some t
  | .literal _ kind, _, _, t, ht => ht
  | .self _ isSuper, _, hsuper, t, ht => by
    obtain rfl : isSuper = false := hsuper
    obtain ⟨c, hc, rfl⟩ := Option.map_eq_some_iff.mp ht
    obtain ⟨c', hc', hgrows⟩ := h.class? hc
    rw [Resolution.typeOf?, Resolution.selfType?, hc']
    simp [TypeDecl.type, hgrows.qualifiedName_eq]
  | .name head id qualifier (some d), haimed, _, t, ht => by
    rw [Resolution.typeOf?]
    exact h.targetType? (haimed _ List.mem_cons_self) ht
  | .call head id qualifier args (some method), haimed, _, t, ht => by
    obtain ⟨x, hx, -⟩ := haimed _ List.mem_cons_self
    obtain ⟨y, hy, hsame, -⟩ := h.grows.method?_of_some hx
    have hresult : y.result = x.result := by rw [hsame]
    simp only [Program.typeOf?, Option.bind_some, hy, hresult] at ht
    simp only [Resolution.typeOf?, Option.bind_some, hx, ht]
  | .create _ type _ _, _, _, t, ht => ht
  | .cast _ type _, _, _, t, ht => ht
  | .newArray _ element _ _, _, _, t, ht => ht
  | .paren _ inner, haimed, hsuper, t, ht => by
    rw [Resolution.typeOf?]
    exact typeOf? h inner (fun x hx => haimed x (List.mem_cons_of_mem _ hx)) hsuper t ht
  | .assign _ _ target value, haimed, hsuper, t, ht => by
    rw [Resolution.typeOf?]
    exact typeOf? h target (fun x hx =>
      haimed x (List.mem_cons_of_mem _ (List.mem_append_left _ hx))) hsuper t ht
  | .index _ array position, haimed, _, t, ht => by
    obtain ⟨u, hu, hentry⟩ := Option.bind_eq_some_iff.mp ht
    have hsuper : array.standsForSuper = false := by
      -- The type of a class is no array.
      rw [Bool.eq_false_iff]
      intro hsuper
      rw [Program.typeOf?_of_super q m array hsuper] at hu
      obtain ⟨c, -, rfl⟩ := Option.map_eq_some_iff.mp hu
      cases hentry
    rw [Resolution.typeOf?, typeOf? h array
      (fun x hx => haimed x (List.mem_cons_of_mem _ (List.mem_append_left _ hx)))
      hsuper u hu]
    exact hentry

end Resolution.Backs

/-! ## The end of a body -/

namespace Resolve

variable {s : Resolution} {id : MethodId} {m : Method} {body : Stmt}

theorem tidy_stmt (site : Site) (names : Names) (htidy : IsTidy body.visits) (s : Resolution) :
    IsTidy (stmt site names body s).1.1.visits := by
  have halike :=
    ((yields_stmt (aims_trivial s.program site names) [] body).holds s _ (.refl _) (.refl _)).1
  exact htidy.of_sameGist (body.sameGist halike)

/-- **The step.** At the end of a body the state knows about the method what all later programs
know. -/
theorem backs_methodBody {q : Program} (hs : s.program.Grounded)
    (hm : s.program.method? id = some m) (hbody : m.body = some body) (htidy : IsTidy body.visits)
    (hlater : (methodBody id s).2.program.Grows q) :
    (methodBody id s).2.Backs q { m with
      body := some (stmt ⟨m.file, m.owner⟩ (parameterNames m) body s).1.1 } where
  grows := hlater
  method := Program.method?_self (method?_methodBody_self hm hbody)
  owner := by
    intro o ho
    obtain ⟨c, hc⟩ := Program.exists_class?_of_lt ((hs.method? hm).owner o ho)
    obtain ⟨c', hc', -⟩ := (resolves_methodBody id s).grows.type hc
    exact ⟨c', hc'⟩
  locals := by
    intro node l hl
    obtain ⟨hmem, rfl⟩ := Stmt.of_findLocal? hl
    have hresolved := tidy_stmt ⟨m.file, m.owner⟩ (parameterNames m) htidy s
    rw [methodBody_of_body hm hbody]
    exact (runs_stmt _ body s (known_parameterNames m s) htidy.bare).1.logs.lookup hresolved hmem

theorem wellAimed_methodBody (hm : s.program.method? id = some m) (hbody : m.body = some body)
    (htidy : IsTidy body.visits) {e : Expr}
    (he : Visit.expr e ∈ (stmt ⟨m.file, m.owner⟩ (parameterNames m) body s).1.1.visits) :
    e.WellAimed (methodBody id s).2.program := by
  rw [methodBody_of_body hm hbody]
  have haims := aims_wellAimed (Program.method?_self hm)
  have hspots :=
    ((yields_stmt haims [] body).holds s _ (.refl _) (resolving_putBody hm hbody).grows).2.1
  obtain ⟨scope, hspot⟩ := (Stmt.charts [] _).covered trivial (tidy_stmt _ _ htidy s).bare e he
  exact hspots _ hspot

theorem run_append (ids ids' : List MethodId) (s : Resolution) :
    run (ids ++ ids') s = run ids' (run ids s) := by
  induction ids generalizing s with
  | nil => rfl
  | cons id rest ih => exact ih (methodBody id s).2

end Resolve

/-- The state of a resolution at the end of the body of a method. -/
def Program.endOfBody (p : Program) (id : MethodId) : Resolution :=
  Resolve.run (p.qualifySignatures.resolvable.takeWhile (· ≠ id) ++ [id])
    { program := p.qualifySignatures }

/-- **The run.** The end of a body is a stop on the way to the resolved program, and the body stays
as it is from there. -/
theorem Program.exists_endOfBody (p : Program) {id : MethodId}
    (hid : id ∈ p.qualifySignatures.resolvable) :
    ∃ (m : Method) (body : Stmt) (s : Resolution), p.qualifySignatures.method? id = some m ∧
      m.body = some body ∧
      p.qualifySignatures.Resolves s.program ∧ s.program.method? id = some m ∧
      p.endOfBody id = (Resolve.methodBody id s).2 ∧ (p.endOfBody id).program.Grows p.resolve ∧
      p.resolve.method? id = (p.endOfBody id).program.method? id := by
  obtain ⟨m, body, hm, hbody, -⟩ := mem_resolvable.mp hid
  let start : Resolution := { program := p.qualifySignatures }
  obtain ⟨before, after, hsplit, hbefore⟩ := List.eq_append_cons_of_mem hid
  have hafter : id ∉ after := by
    have hnodup := p.qualifySignatures.nodup_resolvable
    rw [hsplit] at hnodup
    exact (List.nodup_cons.mp (List.nodup_append.mp hnodup).2.1).1
  have hfirst : p.qualifySignatures.resolvable.takeWhile (· ≠ id) = before := by
    rw [hsplit, List.takeWhile_append_of_pos, List.takeWhile_cons_of_neg, List.append_nil]
    · simp
    · intro other hother
      refine decide_eq_true ?_
      rintro rfl
      exact hbefore hother
  have hend : p.endOfBody id = (Resolve.methodBody id (Resolve.run before start)).2 := by
    rw [endOfBody, hfirst, Resolve.run_append]
    rfl
  have hresolve : p.resolve = (Resolve.run after (p.endOfBody id)).program := by
    change (Resolve.run p.qualifySignatures.resolvable start).program = _
    rw [hsplit, Resolve.run_append, hend]
    rfl
  have hsteps := Resolve.resolves_run before start
  have hlive : (Resolve.run before start).program.method? id = some m :=
    (Resolve.method?_run_of_not_mem hbefore (index_lt_of_method? hm)).trans hm
  refine ⟨m, body, _, hm, hbody, hsteps, hlive, hend, ?_, ?_⟩
  · rw [hresolve]
    exact (Resolve.resolves_run after _).grows
  · rw [hresolve]
    refine Resolve.method?_run_of_not_mem hafter ?_
    rw [hend]
    exact index_lt_of_method? (Resolve.method?_methodBody_self hlive hbody)

/-- **The two typings agree but for `super`.** In every body that is resolved, for a program that is
made from source texts: what the resolved program answers for an expression that does not stand for
`super`, the tables at the end of the body answer as well. For one that does, the program answers
the class of the method, and the tables answer the class that this one extends. -/
theorem typings_agree_but_for_super {p : Program} (hp : p.IsRead) {id : MethodId}
    (hid : id ∈ p.qualifySignatures.resolvable) :
    ∃ m, p.resolve.method? id = some m ∧ ∀ e ∈ m.exprs,
      (e.standsForSuper = false →
        ∀ t, p.resolve.typeOf? m e = some t → (p.endOfBody id).typeOf? m.owner e = some t) ∧
      (e.standsForSuper = true → ∀ c, p.resolve.classOf? m = some c →
        p.resolve.typeOf? m e = some c.type ∧
        (p.endOfBody id).typeOf? m.owner e = c.superName.map (⟨·, 0⟩)) := by
  obtain ⟨m, body, s, hm, hbody, hsteps, hlive, hend, hgrows, hdone⟩ := p.exists_endOfBody hid
  have htidy : IsTidy body.visits := by
    rw [Program.method?_qualifySignatures] at hm
    obtain ⟨x, hx, rfl⟩ := Option.map_eq_some_iff.mp hm
    have hvisits := hp.tidy id x hx
    rwa [Method.visits, show x.body = some body from hbody] at hvisits
  rw [hend] at hgrows hdone ⊢
  have hbacks := Resolve.backs_methodBody (hp.grounded.qualifySignatures.resolves hsteps) hlive
    hbody htidy hgrows
  refine ⟨_, hdone.trans (Resolve.method?_methodBody_self hlive hbody),
    fun e he => ⟨fun hsuper => ?_, fun hsuper c hc => ?_⟩⟩
  · refine hbacks.typeOf? e (fun x hx => ?_) hsuper
    obtain ⟨v, hv, hexpr⟩ := List.mem_filterMap.mp he
    obtain rfl : v = .expr e := by
      cases v <;> simp_all [Visit.expr?]
    exact Resolve.wellAimed_methodBody hlive hbody htidy (Stmt.isClosed _ e hv _ hx)
  · exact hbacks.typeOf?_super hsuper hc

/-- A class whose method uses a parameter, a local array, a field, a cast and a method of the class
that it extends. -/
def Program.mixedTypes : Program :=
  (Program.empty.addSource ⟨"A.java"⟩
    "class A extends B { long f; void m(int x) { int[] a = { x }; f = (long) (a[0]); super.hashCode(); } }" .project).2

/-- There the two typings agree but for `super`. -/
theorem typings_of_mixedTypes : ∃ m, Program.mixedTypes.resolve.method? ⟨0⟩ = some m ∧
    ∀ e ∈ m.exprs,
    (e.standsForSuper = false → ∀ t, Program.mixedTypes.resolve.typeOf? m e = some t →
      (Program.mixedTypes.endOfBody ⟨0⟩).typeOf? m.owner e = some t) ∧
    (e.standsForSuper = true → ∀ c, Program.mixedTypes.resolve.classOf? m = some c →
      Program.mixedTypes.resolve.typeOf? m e = some c.type ∧
        (Program.mixedTypes.endOfBody ⟨0⟩).typeOf? m.owner e = c.superName.map (⟨·, 0⟩)) :=
  typings_agree_but_for_super (.addTree .empty _ _ _) (by decide +kernel)

/-- A class with a method that calls a method of the class that it extends. -/
def Program.superCall : Program :=
  (Program.empty.addSource ⟨"A.java"⟩
    "class B { } class A extends B { void m() { super.toString(); } }" .project).2

/-- There the program takes `super` for the class itself, and the tables take it for the class that
is extended. -/
theorem super_typed_twice : ∃ m e, Program.superCall.resolve.method? ⟨0⟩ = some m ∧
    m.exprs[1]? = some e ∧
    Program.superCall.resolve.typeOf? m e = some ⟨"A", 0⟩ ∧
      (Program.superCall.endOfBody ⟨0⟩).typeOf? m.owner e = some ⟨"B", 0⟩ := by
  let p := Program.superCall
  have hanswers : ((p.resolve.method? ⟨0⟩).bind fun m => m.exprs[1]?.map fun e =>
      (p.resolve.typeOf? m e, (p.endOfBody ⟨0⟩).typeOf? m.owner e)) =
        some (some ⟨"A", 0⟩, some ⟨"B", 0⟩) := by
    decide +kernel
  obtain ⟨m, hm, hrest⟩ := Option.bind_eq_some_iff.mp hanswers
  obtain ⟨e, he, htypes⟩ := Option.map_eq_some_iff.mp hrest
  obtain ⟨hprogram, htables⟩ := Prod.mk.inj htypes
  exact ⟨m, e, hm, he, hprogram, htables⟩

end KernelLint
