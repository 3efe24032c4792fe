import KernelLint.Proofs.Program.Edit
import KernelLint.Proofs.Resolve.Scoping

/-!
# Targets

Right after a resolution, the targets in the bodies that it resolved are there and are what they are
taken for. Each was found in the program of its moment, and what was found then is still to be found
in the end.
-/

namespace KernelLint

/-- The target of the expression, if it has one, is in the program and fits: a call denotes a live
method of its name, an object creation a live constructor of the class that takes the arguments, and
a name a field of its name, a class, or a parameter that its method has. -/
def Expr.WellAimed (p : Program) : Expr → Prop
  | .name _ id _ (some (.field field)) => ∃ f, p.field? field = some f ∧ f.name = id
  | .name _ _ _ (some (.type type)) => ∃ c, p.class? type = some c
  | .name _ _ _ (some (.parameter method i)) => ∃ m, p.method? method = some m ∧ i < m.params.length
  | .name _ _ _ (some (.method _)) => False
  | .call _ id _ _ (some method) => ∃ m, p.method? method = some m ∧ m.name = id
  | .create _ type args (some method) => ∃ m c, p.method? method = some m ∧
      p.findClass? type.type.name = some c ∧
    m.owner = some c.id ∧ m.name = c.name ∧ m.isConstructor = true ∧
    m.acceptsArity args.length = true
  | _ => True

namespace Resolve

variable {p : Program}

theorem wellAimed_of_denotes {q : Program} {head : Excerpt} {id : String} {qualifier : Option Expr}
    {target : Option Declaration} (h : ∀ d, target = some d → Denotes q id d) :
    (Expr.name head id qualifier target).WellAimed q := by
  cases target with
  | none => trivial
  | some d =>
    have hd := h d rfl
    cases d with
    | field field => exact hd
    | type type => exact hd
    | method method => exact hd
    | parameter method i => exact hd.elim
    | localVar node => trivial

theorem yields_orElse {α : Type} {first second : Resolve (Option α)} {Q : Program → α → Prop}
    (hfirst : Yields p first fun q found => ∀ a, found = some a → Q q a)
    (hsecond : Yields p second fun q found => ∀ a, found = some a → Q q a) :
    Yields p (Resolve.orElse first second) fun q found => ∀ a, found = some a → Q q a := by
  refine hfirst.bind fun found _ => ?_
  cases found with
  | some a => exact .pure fun q _ h => h
  | none => exact hsecond.mono fun _ _ _ h _ => h

theorem yields_locates {name : String} {search : Program → Option MethodId × Program}
    (hadds : ∀ r : Program, r.Adds (search r).2) (h : ∀ r, Program.Locates name (search r)) :
    Yields p (onProgram search) fun q found => ∀ id, found = some id → q.HasNamed id name := by
  refine .of_advances (.onProgram hadds) fun s q _ hq id hid => ?_
  exact ((h s.program).hasNamed id hid).grows hq

theorem yields_callTarget (name : String) (qualifier : Option Expr) (arity : Nat) (site : Site) :
    Yields p (callTarget name qualifier arity site) fun q target =>
      ∀ id, target = some id → q.HasNamed id name := by
  have hobject : Yields p (onProgram (·.objectMethod name arity)) fun q found =>
      ∀ id, found = some id → q.HasNamed id name :=
    yields_locates (·.adds_objectMethod name arity) (·.locates_objectMethod name arity)
  cases qualifier with
  | none =>
    refine Yields.get.bind fun s _ => ?_
    refine (yields_orElse ?_ (yields_orElse ?_ hobject)).mono fun _ _ _ h _ => h
    · exact yields_locates (Program.adds_findMethodAmong name arity _)
        (Program.locates_findMethodAmong name arity _)
    · exact yields_locates (·.adds_staticImportMethod ..) (·.locates_staticImportMethod ..)
  | some qualifier =>
    refine Yields.bind (Q := fun _ _ => True)
      (.of_advances (advances_receiver qualifier site.owner) fun _ _ _ _ => trivial) fun found _ =>
        ?_
    cases found with
    | none => exact .pure fun _ _ _ => nofun
    | some id =>
      refine (yields_orElse ?_ hobject).mono fun _ _ _ h _ => h
      exact yields_locates (Program.adds_findMethodUpTo name arity _ id)
        (Program.locates_findMethodUpTo name arity _ id)

theorem wellAimed_create {r q : Program} (hrq : r.Grows q) (head : Excerpt) (type : TypeUse)
    (args : List Expr) :
    (Expr.create head type args (r.findConstructor? type.type args.length)).WellAimed q := by
  cases hfound : r.findConstructor? type.type args.length with
  | none => trivial
  | some id =>
    obtain ⟨c, m, hc, hm, howner, hname, hconstructor, haccepts⟩ :=
      Program.of_findConstructor? hfound
    obtain ⟨c', hc', hcgrows⟩ := hrq.findClass? hc
    obtain ⟨m', hm', hsame, -⟩ := hrq.method?_of_some hm
    refine ⟨m', c', hm', hc', ?_⟩
    rw [hsame, hcgrows.id_eq, hcgrows.name_eq]
    exact ⟨howner, hname, hconstructor, haccepts⟩

theorem aims_wellAimed {m : Method} (hm : p.method? m.id = some m) :
    Aims p ⟨m.file, m.owner⟩ (parameterNames m) fun q spot => spot.expr.WellAimed q where
  plain := by
    intro q scope e he
    cases e <;> trivial
  name := by
    intro scope head id qualifier
    cases qualifier with
    | some qualifier => exact (yields_memberOf qualifier id head.text _).mono fun _ _ _ =>
        wellAimed_of_denotes
    | none =>
      refine (yields_simpleName m scope id _).mono fun q target hq htarget => ?_
      rcases htarget with ⟨l, -, rfl⟩ | ⟨-, i, ⟨⟨x, hx, -⟩, -⟩, rfl⟩ | ⟨-, -, hdenotes⟩
      · trivial
      · obtain ⟨m', hm', hsame, -⟩ := hq.method?_of_some hm
        refine ⟨m', hm', ?_⟩
        rw [hsame]
        exact (List.getElem?_eq_some_iff.mp hx).1
      · exact wellAimed_of_denotes hdenotes
  call := by
    intro scope head id qualifier args
    refine (yields_callTarget id qualifier args.length _).mono fun q target _ h => ?_
    cases target with
    | none => trivial
    | some method => exact h method rfl
  create := fun _ head type args r _ q hq => wellAimed_create hq head type args

end Resolve

/-- **Resolved targets fit.** In every body that a resolution resolves, the target of each call,
object creation and name is in the resolved program and is what it is taken for. The spots of a body
are all its expressions, save for initializers that hang on the variable of a for-each loop, on a
caught exception or on a parameter of a lambda. -/
theorem resolved_targets_fit (p : Program) {id : MethodId}
    (hid : id ∈ p.qualifySignatures.resolvable) :
    ∃ m body, p.resolve.method? id = some m ∧ m.body = some body ∧
      (∀ spot ∈ body.spots [], spot.expr.WellAimed p.resolve) ∧
      ((∀ v ∈ m.visits, v.isBare = true) → ∀ e ∈ m.exprs, e.WellAimed p.resolve) := by
  obtain ⟨m, body, r, hm, -, hr, hlater, hfound⟩ := p.exists_traversal hid
  have haims := Resolve.aims_wellAimed (Program.method?_self hm)
  have hspots := ((Resolve.yields_stmt haims [] body).holds r _ hr hlater).2.1
  refine ⟨_, _, hfound, rfl, hspots, fun hbare e he => ?_⟩
  obtain ⟨v, hv, hexpr⟩ := List.mem_filterMap.mp he
  obtain rfl : v = .expr e := by
    cases v <;> simp_all [Visit.expr?]
  obtain ⟨scope, hspot⟩ := (Stmt.charts [] _).covered trivial hbare e hv
  exact hspots _ hspot

/-- A class whose method looks into a library, makes an object and calls a method of its own. -/
def Program.mixedTargets : Program :=
  (Program.empty.addSource ⟨"C.java"⟩
    "class C { C() { } void m(int x) { Math.abs(x); new C(); k(Math.PI); } void k(double d) { } }"
    .project).2

/-- There all targets in the body of the method fit. -/
theorem targets_of_mixedTargets : ∃ m body, Program.mixedTargets.resolve.method? ⟨1⟩ = some m ∧
    m.body = some body ∧
    ∀ spot ∈ body.spots [], spot.expr.WellAimed Program.mixedTargets.resolve := by
  obtain ⟨m, body, hm, hbody, hspots, -⟩ :=
    @resolved_targets_fit Program.mixedTargets ⟨1⟩ (by decide +kernel)
  exact ⟨m, body, hm, hbody, hspots⟩

/-- A class whose first method gets a for-each loop in which the variable has an initializer that
calls the second method, before that one is removed. -/
def Program.strayCall : Program :=
  let call : Expr := .call default "h" none [] (some ⟨1⟩)
  let item : Local := .mk default "i" ⟨default, ⟨"int", 0⟩⟩ (some call)
  let p := (Program.empty.addSource ⟨"C.java"⟩ "class C { void k() { } void h() { } }" .project).2
  (p.edit (.replaceBody ⟨0⟩ (some (.forEach default item call (.block default []))) "{ }")).edit
    (.removeMethod ⟨1⟩)

/-- There the call in the initializer still denotes the removed method. -/
theorem stray_call_denotes_removed :
    ∃ m, Program.strayCall.resolve.method? ⟨0⟩ = some m ∧
      m.calls.map Expr.callTarget? = [some ⟨1⟩, none] ∧
      (Program.strayCall.resolve.method? ⟨1⟩).isNone = true ∧
      ⟨0⟩ ∈ Program.strayCall.qualifySignatures.resolvable := by
  refine ⟨(Program.strayCall.resolve.method? ⟨0⟩).get (by decide +kernel), by simp, ?_, ?_, ?_⟩ <;>
    decide +kernel

end KernelLint
