import KernelLint.Program.Entity
import Mathlib.Logic.Relation

/-!
# Parts

What stands directly in a node, constructor by constructor. The walk of a node is the node followed
by the walks of its parts (`Visit.walk_eq`), so it meets exactly what stands in the node at any
depth (`Visit.mem_walk`). The walk of a part is shorter than the whole, which gives an induction
over all sorts of nodes at once (`Visit.parts_induction`).
-/

namespace KernelLint

theorem Expr.visitsList_eq (es : List Expr) : Expr.visitsList es = es.flatMap Expr.visits := by
  induction es with
  | nil => rfl
  | cons e rest ih => rw [Expr.visitsList, List.flatMap_cons, ih]

theorem Stmt.visitsList_eq (ss : List Stmt) : Stmt.visitsList ss = ss.flatMap Stmt.visits := by
  induction ss with
  | nil => rfl
  | cons s rest ih => rw [Stmt.visitsList, List.flatMap_cons, ih]

theorem Local.visitsList_eq (ls : List Local) : Local.visitsList ls = ls.flatMap Local.visits := by
  induction ls with
  | nil => rfl
  | cons l rest ih => rw [Local.visitsList, List.flatMap_cons, ih]

theorem Handler.visitsList_eq (hs : List Handler) :
    Handler.visitsList hs = hs.flatMap fun h => h.param.visits ++ h.body.visits := by
  induction hs with
  | nil => rfl
  | cons h rest ih =>
    rw [Handler.visitsList, List.flatMap_cons, ih]
    cases h
    rfl

theorem Expr.visitsOption_eq (e : Option Expr) :
    Expr.visitsOption e = e.toList.flatMap Expr.visits := by
  cases e <;> simp [Expr.visitsOption]

theorem Stmt.visitsOption_eq (s : Option Stmt) :
    Stmt.visitsOption s = s.toList.flatMap Stmt.visits := by
  cases s <;> simp [Stmt.visitsOption]

namespace Visit

/-- What stands directly in a node. -/
def parts : Visit → List Visit
  | .expr (.literal ..) => []
  | .expr (.self ..) => []
  | .expr (.name _ _ qualifier _) => qualifier.toList.map .expr
  | .expr (.call _ _ qualifier args _) => qualifier.toList.map .expr ++ args.map .expr
  | .expr (.create _ _ args _) => args.map .expr
  | .expr (.paren _ inner) => [.expr inner]
  | .expr (.unary _ _ operand _) => [.expr operand]
  | .expr (.binary _ _ left right) => [.expr left, .expr right]
  | .expr (.conditional _ c t f) => [.expr c, .expr t, .expr f]
  | .expr (.cast _ _ operand) => [.expr operand]
  | .expr (.assign _ _ target value) => [.expr target, .expr value]
  | .expr (.index _ array position) => [.expr array, .expr position]
  | .expr (.newArray _ _ sizes entries) => sizes.map .expr ++ entries.map .expr
  | .expr (.lambda _ params body) => params.map .localVar ++ [.stmt body]
  | .expr (.other _ children) => children.map .expr
  | .stmt (.declare _ locals) => locals.map .localVar
  | .stmt (.eval _ e) => [.expr e]
  | .stmt (.block _ stmts) => stmts.map .stmt
  | .stmt (.branch _ c t f) => [.expr c, .stmt t] ++ f.toList.map .stmt
  | .stmt (.loop _ init c update body) =>
    init.map .stmt ++ c.toList.map .expr ++ update.map .expr ++ [.stmt body]
  | .stmt (.forEach _ item iterable body) => [.localVar item, .expr iterable, .stmt body]
  | .stmt (.ret _ value) => value.toList.map .expr
  | .stmt (.raise _ value) => [.expr value]
  | .stmt (.attempt _ resources body handlers last) =>
    resources.map .stmt ++ [.stmt body] ++
      (handlers.flatMap fun h => [.localVar h.param, .stmt h.body])
      ++ last.toList.map .stmt
  | .stmt (.assertion _ c message) => .expr c :: message.toList.map .expr
  | .stmt (.localClass _ id) => [.localClass id]
  | .stmt (.other _ stmts exprs) => exprs.map .expr ++ stmts.map .stmt
  | .localVar (.mk _ _ _ init) => init.toList.map .expr
  | .localClass _ => []

/-- The second node stands in the first one, at any depth, or is that node itself. -/
def Contains : Visit → Visit → Prop := Relation.ReflTransGen fun v w => w ∈ v.parts

/-- The walk that starts at a node. -/
def walk : Visit → List Visit
  | .stmt s => s.visits
  | .expr e => e.visits
  | .localVar l => l.visits
  | .localClass id => [.localClass id]

@[simp] theorem walk_stmt (s : Stmt) : walk (.stmt s) = s.visits := rfl

@[simp] theorem walk_expr (e : Expr) : walk (.expr e) = e.visits := rfl

@[simp] theorem walk_localVar (l : Local) : walk (.localVar l) = l.visits := rfl

/-- **The walk of a node** is the node followed by the walks of its parts. -/
theorem walk_eq (v : Visit) : v.walk = v :: v.parts.flatMap walk := by
  cases v with
  | expr e =>
    cases e <;> simp [parts, Expr.visits, Expr.visitsOption_eq, Expr.visitsList_eq,
      Local.visitsList_eq, List.flatMap_map]
  | stmt s =>
    cases s <;> simp [parts, Stmt.visits, Expr.visitsOption_eq, Expr.visitsList_eq,
      Stmt.visitsOption_eq, Stmt.visitsList_eq, Local.visitsList_eq, Handler.visitsList_eq,
      List.flatMap_map, List.flatMap_assoc, walk]
  | localVar l =>
    cases l
    simp [parts, Local.visits, Expr.visitsOption_eq, List.flatMap_map]
  | localClass id => rfl

variable {u v w : Visit}

theorem length_walk_lt (h : w ∈ v.parts) : w.walk.length < v.walk.length := by
  have hsub : w.walk.Sublist (v.parts.flatMap walk) := by
    rw [List.flatMap_def]
    exact List.sublist_flatten_of_mem (List.mem_map_of_mem h)
  have hle := hsub.length_le
  rw [walk_eq v, List.length_cons]
  omega

theorem parts_induction {motive : Visit → Prop} (step : ∀ v, (∀ w ∈ v.parts, motive w) → motive v)
    (v : Visit) :
    motive v := by
  induction hn : v.walk.length using Nat.strongRecOn generalizing v with
  | ind n ih =>
    apply step
    intro w hw
    exact ih w.walk.length (hn ▸ length_walk_lt hw) w rfl

/-- **The walk of a node meets exactly what stands in it**, at any depth. -/
theorem mem_walk : w ∈ v.walk ↔ v.Contains w := by
  induction v using parts_induction with
  | step v ih =>
    rw [walk_eq, List.mem_cons, List.mem_flatMap, Contains, Relation.ReflTransGen.cases_head_iff,
      eq_comm]
    exact or_congr_right (exists_congr fun part => and_congr_right fun hpart => ih part hpart)

theorem mem_walk_trans (hv : v ∈ u.walk) (hw : w ∈ v.walk) : w ∈ u.walk :=
  mem_walk.mpr ((mem_walk.mp hv).trans (mem_walk.mp hw))

end Visit

namespace Method

/-- The node stands in the body of the method, at any depth. -/
def Holds (m : Method) (v : Visit) : Prop := ∃ body, m.body = some body ∧
    (Visit.stmt body).Contains v

variable {m : Method}

theorem mem_visits {v : Visit} : v ∈ m.visits ↔ m.Holds v := by
  rw [visits, Stmt.visitsOption_eq, List.mem_flatMap]
  simp only [Option.mem_toList, Holds, ← Visit.mem_walk, Visit.walk_stmt]

theorem mem_exprs {e : Expr} : e ∈ m.exprs ↔ m.Holds (.expr e) := by
  rw [exprs, List.mem_filterMap, ← mem_visits]
  constructor
  · rintro ⟨v, hv, he⟩
    cases v <;> cases he
    exact hv
  · intro he
    exact ⟨_, he, rfl⟩

theorem mem_stmts {s : Stmt} : s ∈ m.stmts ↔ m.Holds (.stmt s) := by
  rw [stmts, List.mem_filterMap, ← mem_visits]
  constructor
  · rintro ⟨v, hv, hs⟩
    cases v <;> cases hs
    exact hv
  · intro hs
    exact ⟨_, hs, rfl⟩

theorem mem_locals {l : Local} : l ∈ m.locals ↔ m.Holds (.localVar l) := by
  rw [locals, List.mem_filterMap, ← mem_visits]
  constructor
  · rintro ⟨v, hv, hl⟩
    cases v <;> cases hl
    exact hv
  · intro hl
    exact ⟨_, hl, rfl⟩

theorem mem_calls {e : Expr} : e ∈ m.calls ↔ m.Holds (.expr e) ∧ e.isCall = true := by
  rw [calls, List.mem_filterMap, ← mem_visits]
  constructor
  · rintro ⟨v, hv, he⟩
    obtain ⟨hexpr, hcall⟩ := Option.filter_eq_some_iff.mp he
    cases v <;> cases hexpr
    exact ⟨hv, hcall⟩
  · rintro ⟨he, hcall⟩
    exact ⟨_, he, Option.filter_eq_some_iff.mpr ⟨rfl, hcall⟩⟩

end Method

end KernelLint
