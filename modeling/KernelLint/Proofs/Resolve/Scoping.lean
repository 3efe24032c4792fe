import KernelLint.Java.Source
import KernelLint.Proofs.Resolve.Found
import Mathlib.Data.List.Induction

/-!
# Lexical scoping

A simple name that is declared by a local variable in scope denotes the innermost and latest of
them; else it denotes the parameter of that name of the method, if there is one. Nothing else ever
denotes a local variable or a parameter. The names that the traversal carries around are the
variables in scope, with the parameters behind them, so this is a fact about a single lookup.
-/

namespace KernelLint

namespace Resolve

/-! ## Looking up a name in scope -/

theorem lookup_namesIn (outer : Names) (scope : List Local) (name : String) :
    (namesIn outer scope).lookup name =
      match scope.find? (·.name = name) with
      | some l => some (.localVar l.node)
      | none => outer.lookup name := by
  induction scope with
  | nil => rfl
  | cons l rest ih =>
    by_cases hname : l.name = name
    · simp [namesIn, hname]
    · have hne : (name == l.name) = false := by simpa using fun h => hname h.symm
      rw [List.find?_cons_of_neg (by simpa using hname), ← ih]
      simp [namesIn, List.lookup_cons, hne]

/-- The parameter at the position is the last one of the name. -/
structure LastNamed (params : List Parameter) (name : String) (index : Nat) : Prop where
  named : ∃ x, params[index]? = some x ∧ x.name = name
  last : ∀ (j : Nat) (y : Parameter), index < j → params[j]? = some y → y.name ≠ name

theorem lookup_parameterNames (m : Method) (name : String) :
    ((parameterNames m).lookup name = none ∧ ∀ x ∈ m.params, x.name ≠ name) ∨
      ∃ i, LastNamed m.params name i ∧ (parameterNames m).lookup name =
        some (.parameter m.id i) := by
  unfold parameterNames
  induction m.params using List.reverseRecOn with
  | nil => exact .inl ⟨rfl, nofun⟩
  | append_singleton front x ih =>
    rw [List.mapIdx_concat, List.reverse_concat, List.lookup_cons]
    by_cases hname : x.name = name
    · simp only [hname, beq_self_eq_true]
      refine .inr ⟨front.length, ⟨⟨x, by simp, hname⟩, fun j y hj hy => ?_⟩, rfl⟩
      rw [List.getElem?_eq_none (by simpa using Nat.succ_le_of_lt hj)] at hy
      cases hy
    · have hne : (name == x.name) = false := by simpa using fun h => hname h.symm
      simp only [hne]
      rcases ih with ⟨hnone, hfront⟩ | ⟨i, ⟨⟨y, hy, hyname⟩, hlast⟩, hfound⟩
      · refine .inl ⟨hnone, fun y hy => ?_⟩
        rcases List.mem_append.mp hy with hy | hy
        · exact hfront y hy
        · rwa [List.mem_singleton.mp hy]
      · have hi : i < front.length := (List.getElem?_eq_some_iff.mp hy).1
        refine .inr ⟨i, ⟨⟨y, by rw [List.getElem?_append_left hi, hy], hyname⟩,
          fun j z hj hz => ?_⟩, hfound⟩
        rcases Nat.lt_trichotomy j front.length with hlt | rfl | hgt
        · exact hlast j z hj (by rwa [List.getElem?_append_left hlt] at hz)
        · obtain rfl : x = z := by simpa using hz
          exact hname
        · rw [List.getElem?_eq_none (by simpa using Nat.succ_le_of_lt hgt)] at hz
          cases hz

end Resolve

/-! ## Spots -/

/-- Is it neither a local variable nor a parameter? -/
def Declaration.isGlobal : Declaration → Bool
  | .localVar _ | .parameter .. => false
  | .method _ | .field _ | .type _ => true

/-- What scoping asks of a name where it stands in the body of a method. A simple name that is
declared in scope denotes the innermost and latest such variable, and any other simple name the
parameter of that name, if there is one. No other name denotes a local variable or a parameter. -/
def Spot.Lexical (m : Method) : Spot → Prop
  | ⟨scope, .name _ id none target⟩ =>
    match scope.find? (·.name = id) with
    | some l => target = some (.localVar l.node)
    | none =>
      (∃ i, Resolve.LastNamed m.params id i ∧ target = some (.parameter m.id i)) ∨
        ((∀ x ∈ m.params, x.name ≠ id) ∧ ∀ d ∈ target, d.isGlobal = true)
  | ⟨_, .name _ _ (some _) target⟩ => ∀ d ∈ target, d.isGlobal = true
  | _ => True

/-- What scoping asks of a body: every spot is as it should be, and the variables in scope there
belong to the body. -/
def Stmt.Lexical (m : Method) (body : Stmt) : Prop :=
  ∀ spot ∈ body.spots [], spot.Lexical m ∧ ∀ l ∈ spot.scope, Visit.localVar l ∈ body.visits

namespace Resolve

variable {p : Program}

theorem Denotes.isGlobal {name : String} {d : Declaration} (h : Denotes p name d) :
    d.isGlobal = true := by
  cases d with
  | field id => rfl
  | type id => rfl
  | method id => rfl
  | parameter id index => exact h.elim
  | localVar node => exact h.elim

theorem yields_simpleName (m : Method) (scope : List Local) (id : String) (site : Site) :
    Yields p (simpleTarget id (namesIn (parameterNames m) scope) site) fun q target =>
      (∃ l, scope.find? (·.name = id) = some l ∧ target = some (.localVar l.node)) ∨
      (scope.find? (·.name = id) = none ∧ ∃ i, LastNamed m.params id i ∧
        target = some (.parameter m.id i)) ∨
      (scope.find? (·.name = id) = none ∧ (∀ x ∈ m.params, x.name ≠ id) ∧ ∀ d, target = some d →
        Denotes q id d) := by
  refine (yields_simpleTarget id _ site).mono fun q target _ ⟨hbound, hfree⟩ => ?_
  rw [lookup_namesIn] at hbound hfree
  cases hfind : scope.find? (·.name = id) with
  | some l =>
    simp only [hfind] at hbound
    exact .inl ⟨l, rfl, hbound _ rfl⟩
  | none =>
    simp only [hfind] at hbound hfree
    rcases lookup_parameterNames m id with ⟨hnone, hparams⟩ | ⟨i, hi, hfound⟩
    · exact .inr (.inr ⟨rfl, hparams, hfree hnone⟩)
    · exact .inr (.inl ⟨rfl, i, hi, hbound _ hfound⟩)

theorem aims_lexical (p : Program) (m : Method) :
    Aims p ⟨m.file, m.owner⟩ (parameterNames m) fun _ spot => spot.Lexical m where
  plain := by
    intro q scope e he
    cases e <;> trivial
  name := by
    intro scope head id qualifier
    cases qualifier with
    | some qualifier => exact (yields_memberOf qualifier id head.text _).mono fun _ _ _ h d hd =>
        (h d hd).isGlobal
    | none =>
      refine (yields_simpleName m scope id _).mono fun q target _ htarget => ?_
      rw [Spot.Lexical]
      rcases htarget with ⟨l, hfind, rfl⟩ | ⟨hfind, i, hi, rfl⟩ | ⟨hfind, hparams, hdenotes⟩
      · rw [hfind]
      · rw [hfind]
        exact .inl ⟨i, hi, rfl⟩
      · rw [hfind]
        exact .inr ⟨hparams, fun d hd => (hdenotes d hd).isGlobal⟩
  call := fun _ _ _ _ _ => .of_advances (advances_callTarget ..) fun _ _ _ _ => trivial
  create := fun _ _ _ _ _ _ _ _ => trivial

theorem lexical_stmt (m : Method) (body : Stmt) (s : Resolution) :
    (stmt ⟨m.file, m.owner⟩ (parameterNames m) body s).1.1.Lexical m := by
  have hspots :=
    ((yields_stmt (aims_lexical s.program m) [] body).holds s _ (.refl _) (.refl _)).2.1
  intro spot hspot
  refine ⟨hspots spot hspot, fun l hl => ?_⟩
  exact ((Stmt.charts [] _).known spot hspot l hl).resolve_left List.not_mem_nil

end Resolve

/-- **Lexical scoping is respected.** Whatever the state of the resolution, a method whose body is
resolved gets a body in which every name denotes what its scope says. The spots of the body are all
its expressions, save for initializers that hang on the variable of a for-each loop, on a caught
exception or on a parameter of a lambda. -/
theorem methodBody_respects_scopes (s : Resolution) {id : MethodId} {m : Method} {body : Stmt}
    (hm : s.program.method? id = some m) (hbody : m.body = some body) :
    ∃ body', (Resolve.methodBody id s).2.program.method? id = some { m with body := some body' } ∧
      body'.Lexical m ∧
      ((∀ v ∈ body'.visits, v.isBare = true) →
        ∀ e, Visit.expr e ∈ body'.visits → ∃ scope, ⟨scope, e⟩ ∈ body'.spots []) := by
  refine ⟨_, Resolve.method?_methodBody_self hm hbody, Resolve.lexical_stmt m body s, ?_⟩
  exact (Stmt.charts [] _).covered trivial

/-- A parameter whose name a loop variable takes for a while. -/
def Program.shadowedParameter : Program :=
  (Program.empty.addSource ⟨"C.java"⟩
    "class C { int m(int x) { for (int x : new int[x]) { x++; } return x; } }" .project).2

/-- There the body of the method is resolved as its scopes ask. -/
theorem scopes_of_shadowedParameter :
    let s : Resolution := { program := Program.shadowedParameter }
    ∃ m body body', s.program.method? ⟨0⟩ = some m ∧ m.body = some body ∧
      (Resolve.methodBody ⟨0⟩ s).2.program.method? ⟨0⟩ = some { m with body := some body' } ∧
        body'.Lexical m := by
  intro s
  let m := (s.program.method? ⟨0⟩).get (by decide +kernel)
  let body := m.body.get (by decide +kernel)
  have hm : s.program.method? ⟨0⟩ = some m := by simp [m]
  have hbody : m.body = some body := by simp [body]
  obtain ⟨body', hfound, hlexical, -⟩ := methodBody_respects_scopes s hm hbody
  exact ⟨m, body, body', hm, hbody, hfound, hlexical⟩

example :
    ((Program.shadowedParameter.resolve.method? ⟨0⟩).map fun m =>
      m.exprs.filterMap Expr.nameTarget?) =
    some [.parameter ⟨0⟩ 0, .localVar ⟨3⟩, .parameter ⟨0⟩ 0] := by decide +kernel

/-- Is it a simple name that denotes nothing? -/
def Expr.isUnboundName (name : String) : Expr → Bool
  | .name _ id none none => id = name
  | _ => false

/-- A for-each loop whose variable has an initializer, in a method with a parameter that the
initializer names. -/
def Program.strayInitializer : Program :=
  let x : Expr := .name default "x" none none
  let item : Local := .mk default "i" ⟨default, ⟨"int", 0⟩⟩ (some x)
  let p := (Program.empty.addFile ⟨"K.java"⟩ none [] .project).2
  (p.addMethod
    { name := "m", owner := none, file := ⟨0⟩, text := ""
      params := [{ name := "x", type := ⟨default, ⟨"int", 0⟩⟩ }]
      body := some (.forEach default item x (.block default [])) }).2

/-- There the name in the initializer is not looked at, though a parameter has it and no variable
does. -/
theorem stray_initializer_unbound :
    ∃ m, Program.strayInitializer.resolve.method? ⟨0⟩ = some m ∧
      m.exprs.any (·.isUnboundName "x") = true ∧
      m.params.map (·.name) = ["x"] ∧ m.locals.map (·.name) = ["i"] := by
  refine ⟨(Program.strayInitializer.resolve.method?
    ⟨0⟩).get (by decide +kernel), by simp, ?_, ?_, ?_⟩ <;>
    decide +kernel

end KernelLint
