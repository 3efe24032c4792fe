import KernelLint.Java.Body
import Mathlib.Data.List.Basic
import Mathlib.Logic.Relation

/-!
# Where a reading goes

A tree is read either as a statement or as an expression, and each reading goes on with certain
trees below (`steps`), kind by kind. Whatever a reading meets is lower than the tree where it began,
so all of it is met down to the height of that tree (`mem_metUpTo_iff`). From a tree that is not met
the reading has turned away at a tree around it (`exists_last`).
-/

namespace KernelLint.Java

/-- How a tree is read. -/
inductive Mode where
  | expr
  | stmt
  deriving DecidableEq

/-- The trees that play the given parts. -/
def inRoles (t : Tree) (roles : List Role) : List Tree := roles.flatMap fun r => (t.child? r).toList

/-- What stands inside the tree in a part. -/
def inside (t : Tree) (part : Role) : List Tree := (t.child? part).toList.flatMap Tree.parts

def asExprs (ts : List Tree) : List (Mode × Tree) := ts.map (.expr, ·)

def asStmts (ts : List Tree) : List (Mode × Tree) := ts.map (.stmt, ·)

/-- Some trees as statements if they are of some sort, and else as expressions. -/
def asEither (isStmt : Tree → Bool) (ts : List Tree) : List (Mode × Tree) :=
  ts.map fun t => (if isStmt t then .stmt else .expr, t)

/-- The expression of a resource. -/
def resourceValue (t : Tree) : List Tree :=
  if (t.child? .type).isSome then inRoles t [.value] else t.parts.head?.toList

/-- The block of a handler that has a parameter. -/
def handlerBody (t : Tree) : List Tree :=
  if (t.childOf? .catchParameter).isSome then inRoles t [.body] else []

/-- What the groups or rules of a switch do. -/
def switchParts (t : Tree) : List Tree :=
  ((inside t .body).flatMap Tree.parts).filter (!·.isNode .switchLabel)

/-- Where the reading of an expression goes on. -/
def exprSteps (kind : NodeKind) (t : Tree) : List (Mode × Tree) :=
  match kind with
  | .fieldAccess => asExprs (inRoles t [.object])
  | .scopedName | .scopedType | .paren | .updateExpr => asExprs t.parts.head?.toList
  | .methodCall => asExprs (inRoles t [.object] ++ inside t .arguments)
  | .objectCreation => asExprs (inside t .arguments)
  | .unary => asExprs (inRoles t [.operand])
  | .binary | .assignment => asExprs (inRoles t [.left, .right])
  | .ternary => asExprs (inRoles t [.condition, .consequence, .alternative])
  | .cast => asExprs (inRoles t [.value])
  | .arrayAccess => asExprs (inRoles t [.array, .index])
  | .arrayCreation =>
    asExprs (((t.childrenAs .dimensions).filter (·.isNode .dimensionsExpr)).filterMap
      (·.parts.head?) ++ inside t .value)
  | .lambda => asEither (·.isNode .block) (inRoles t [.body])
  | _ => asExprs t.parts

/-- Where the reading of a statement goes on. -/
def stmtSteps (kind : NodeKind) (t : Tree) : List (Mode × Tree) :=
  match kind with
  | .block | .constructorBody => asStmts t.parts
  | .expressionStmt | .throwStmt | .returnStmt => asExprs t.parts.head?.toList
  | .localDecl => asExprs ((t.childrenAs .declarator).flatMap fun d => inRoles d [.value])
  | .ifStmt => asExprs (inRoles t [.condition]) ++ asStmts (inRoles t [.consequence, .alternative])
  | .whileStmt | .doStmt => asExprs (inRoles t [.condition]) ++ asStmts (inRoles t [.body])
  | .forStmt =>
    asEither (·.isNode .localDecl) (t.childrenAs .init) ++
      asExprs (inRoles t [.condition] ++ t.childrenAs .update) ++ asStmts (inRoles t [.body])
  | .enhancedForStmt => asExprs (inRoles t [.value]) ++ asStmts (inRoles t [.body])
  | .tryStmt | .tryWithResources =>
    asExprs ((inside t .resources).flatMap resourceValue) ++
      asStmts (inRoles t [.body] ++ (t.parts.filter (·.isNode .catchClause)).flatMap handlerBody ++
        ((t.childOf? .finallyClause).bind (·.parts.head?)).toList)
  | .assertStmt => asExprs (t.parts.take 2)
  | .classDecl | .interfaceDecl | .enumDecl | .recordDecl | .annotationTypeDecl => []
  | .explicitConstructorCall => asExprs (inside t .arguments)
  | .switchExpr => asExprs (inRoles t [.condition]) ++ asEither isStatement (switchParts t)
  | .synchronizedStmt | .labeledStmt =>
    asExprs (t.parts.filter (·.isNode .paren)) ++ asStmts (t.parts.filter isStatement)
  | .error | .breakStmt | .continueStmt => []
  | _ => asExprs t.parts

/-- Where the reading of a tree goes on. -/
def steps : Mode × Tree → List (Mode × Tree)
  | (_, .leaf ..) => []
  | (.expr, t@(.node _ kind _)) => exprSteps kind t
  | (.stmt, t@(.node _ kind _)) => stmtSteps kind t

/-- The reading of the first tree gets to the second one. -/
def Meets : Mode × Tree → Mode × Tree → Prop := Relation.ReflTransGen fun x y => y ∈ steps x

/-- The trees that are met as statements, down to a depth. -/
def metUpTo : Nat → Mode × Tree → List Tree
  | 0, _ => []
  | n + 1, x => (if x.1 = .stmt then [x.2] else []) ++ (steps x).flatMap (metUpTo n)

/-! ## All that is met -/

section

variable {t c : Tree}

theorem height_lt_of_mem_children (h : c ∈ t.children) : c.height < t.height := by
  have hlist : ∀ cs : List Tree, c ∈ cs → c.height ≤ Tree.heightList cs := by
    intro cs hc
    induction cs with
    | nil => cases hc
    | cons d rest ih =>
      rw [Tree.heightList]
      rcases List.mem_cons.mp hc with rfl | hrest
      · exact Nat.le_max_left _ _
      · exact Nat.le_trans (ih hrest) (Nat.le_max_right _ _)
  cases t with
  | leaf role kind tok => cases h
  | node role kind cs =>
    rw [Tree.height]
    exact Nat.lt_succ_of_le (hlist cs h)

/-- All trees of the list are lower than the given one. -/
def Lower (t : Tree) (ts : List Tree) : Prop := ∀ c ∈ ts, c.height < t.height

theorem Lower.append {ts us : List Tree} (h : Lower t ts) (h' : Lower t us) : Lower t (ts ++ us) :=
  List.forall_mem_append.mpr ⟨h, h'⟩

theorem Lower.flatMap {ts : List Tree} (h : Lower t ts) {f : Tree → List Tree}
    (hf : ∀ d, Lower d (f d)) :
    Lower t (ts.flatMap f) := by
  intro c hc
  obtain ⟨d, hd, hc⟩ := List.mem_flatMap.mp hc
  exact Nat.lt_trans (hf d c hc) (h d hd)

theorem Lower.filter {ts : List Tree} (h : Lower t ts) (test : Tree → Bool) :
    Lower t (ts.filter test) :=
  fun c hc => h c (List.mem_of_mem_filter hc)

theorem lower_parts : Lower t t.parts := fun _ hc => height_lt_of_mem_children
    (List.mem_of_mem_filter hc)

theorem lower_head : Lower t t.parts.head?.toList := fun c hc =>
  lower_parts c (List.mem_of_mem_head? (Option.mem_toList.mp hc))

theorem lower_childrenAs (part : Role) : Lower t (t.childrenAs part) := fun _ hc =>
  height_lt_of_mem_children (List.mem_of_mem_filter hc)

theorem lower_child? (part : Role) : Lower t (t.child? part).toList := fun _ hc =>
  height_lt_of_mem_children (List.mem_of_find?_eq_some (Option.mem_toList.mp hc))

theorem lower_inRoles (roles : List Role) : Lower t (inRoles t roles) := by
  intro c hc
  obtain ⟨part, -, hc⟩ := List.mem_flatMap.mp hc
  exact lower_child? part c hc

theorem lower_inside (part : Role) : Lower t (inside t part) :=
  (lower_child? part).flatMap fun _ => lower_parts

theorem lower_resourceValue : Lower t (resourceValue t) := by
  unfold resourceValue
  split
  · exact lower_inRoles _
  · exact lower_head

theorem lower_handlerBody : Lower t (handlerBody t) := by
  unfold handlerBody
  split
  · exact lower_inRoles _
  · exact nofun

theorem lower_switchParts : Lower t (switchParts t) :=
  ((lower_inside _).flatMap fun _ => lower_parts).filter _

theorem lower_finally : Lower t ((t.childOf? .finallyClause).bind (·.parts.head?)).toList := by
  intro c hc
  obtain ⟨d, hd, hc⟩ := Option.bind_eq_some_iff.mp (Option.mem_toList.mp hc)
  have hclause := height_lt_of_mem_children (List.mem_of_find?_eq_some hd)
  exact Nat.lt_trans (lower_parts c (List.mem_of_mem_head? hc)) hclause

theorem lower_sizes : Lower t
    (((t.childrenAs .dimensions).filter (·.isNode .dimensionsExpr)).filterMap (·.parts.head?)) := by
  intro c hc
  obtain ⟨d, hd, hc⟩ := List.mem_filterMap.mp hc
  exact Nat.lt_trans (lower_parts c (List.mem_of_mem_head? hc)) ((lower_childrenAs _).filter _ d hd)

theorem trees_asExprs (ts : List Tree) :
    (asExprs ts).map Prod.snd = ts := by simp [asExprs, Function.comp_def]

theorem trees_asStmts (ts : List Tree) :
    (asStmts ts).map Prod.snd = ts := by simp [asStmts, Function.comp_def]

theorem trees_asEither (isStmt : Tree → Bool) (ts : List Tree) :
    (asEither isStmt ts).map Prod.snd = ts := by
  simp [asEither, Function.comp_def]

theorem lower_exprSteps (kind : NodeKind) : Lower t ((exprSteps kind t).map Prod.snd) := by
  unfold exprSteps
  split
  all_goals simp only [trees_asExprs, trees_asEither]
  all_goals first
    | exact lower_parts
    | exact lower_head
    | exact lower_inRoles _
    | exact lower_inside _
    | exact (lower_inRoles _).append (lower_inside _)
    | exact lower_sizes.append (lower_inside _)

theorem lower_stmtSteps (kind : NodeKind) : Lower t ((stmtSteps kind t).map Prod.snd) := by
  have hroles : ∀ roles roles', Lower t (inRoles t roles ++ inRoles t roles') := fun _ _ =>
    (lower_inRoles _).append (lower_inRoles _)
  have hattempt : Lower t ((inside t .resources).flatMap resourceValue ++ (inRoles t [.body] ++
      (t.parts.filter (·.isNode .catchClause)).flatMap handlerBody ++
        ((t.childOf? .finallyClause).bind (·.parts.head?)).toList)) :=
    ((lower_inside _).flatMap fun _ => lower_resourceValue).append
      (((lower_inRoles _).append ((lower_parts.filter _).flatMap fun _ => lower_handlerBody)).append
        lower_finally)
  have hnil : Lower t [] := nofun
  unfold stmtSteps
  split
  all_goals simp only [List.map_append, List.map_nil, trees_asExprs, trees_asStmts, trees_asEither]
  all_goals first
    | exact lower_parts
    | exact lower_head
    | exact hroles _ _
    | exact hattempt
    | exact hnil
    | exact lower_inside _
    | exact (lower_childrenAs _).flatMap fun _ => lower_inRoles _
    | exact ((lower_childrenAs _).append ((lower_inRoles _).append (lower_childrenAs _))).append
        (lower_inRoles _)
    | exact fun c hc => lower_parts c (List.mem_of_mem_take hc)
    | exact (lower_inRoles _).append lower_switchParts
    | exact (lower_parts.filter _).append (lower_parts.filter _)

theorem height_lt_of_mem_steps {x y : Mode × Tree} (h : y ∈ steps x) : y.2.height < x.2.height := by
  obtain ⟨mode, t⟩ := x
  have hmem : y.2 ∈ (steps (mode, t)).map Prod.snd := List.mem_map_of_mem h
  cases t with
  | leaf role kind tok => cases h
  | node role kind cs =>
    cases mode with
    | expr => exact lower_exprSteps kind y.2 hmem
    | stmt => exact lower_stmtSteps kind y.2 hmem

theorem mem_metUpTo_iff {n : Nat} {x : Mode × Tree} {u : Tree} (hn : x.2.height < n) :
    u ∈ metUpTo n x ↔ Meets x (.stmt, u) := by
  induction n generalizing x with
  | zero => cases hn
  | succ n ih =>
    -- The bound carries over to the steps since a reading goes down.
    have hlower : ∀ y ∈ steps x, u ∈ metUpTo n y ↔ Meets y (.stmt, u) := fun y hy =>
      ih (by have := height_lt_of_mem_steps hy; omega)
    rw [metUpTo, List.mem_append, List.mem_flatMap]
    constructor
    · rintro (hself | ⟨y, hy, hu⟩)
      · obtain ⟨mode, t⟩ := x
        cases mode with
        | expr => cases hself
        | stmt =>
          rw [if_pos rfl, List.mem_singleton] at hself
          rw [hself]
          exact .refl
      · exact .head hy ((hlower y hy).mp hu)
    · intro hmeets
      rcases hmeets.cases_head with rfl | ⟨y, hy, hrest⟩
      · exact .inl (by simp)
      · exact .inr ⟨y, hy, (hlower y hy).mpr hrest⟩

/-- The first tree contains the second one, or is that tree. -/
def Within : Tree → Tree → Prop := Relation.ReflTransGen fun t c => c ∈ t.children

theorem exists_last {x : Mode × Tree} {u : Tree} (h : Within x.2 u) :
    ∃ z, Meets x z ∧ Within z.2 u ∧ ∀ y ∈ steps z, ¬ Within y.2 u := by
  -- Each step towards the tree goes down, so there is a last one.
  induction hn : x.2.height using Nat.strongRecOn generalizing x with
  | ind n ih =>
    by_cases hon : ∃ y ∈ steps x, Within y.2 u
    · obtain ⟨y, hy, hu⟩ := hon
      obtain ⟨z, hmeets, hz⟩ := ih y.2.height (hn ▸ height_lt_of_mem_steps hy) hu rfl
      exact ⟨z, .head hy hmeets, hz⟩
    · exact ⟨x, .refl, h, fun y hy hu => hon ⟨y, hy, hu⟩⟩

theorem metUpTo_eq {n n' : Nat} {x : Mode × Tree} (hn : x.2.height < n) (hn' : x.2.height < n') :
    metUpTo n x = metUpTo n' x := by
  induction n generalizing n' x with
  | zero => cases hn
  | succ n ih =>
    obtain ⟨n', rfl⟩ : ∃ k, n' = k + 1 := ⟨n' - 1, by omega⟩
    have hsame : ∀ y ∈ steps x, metUpTo n y = metUpTo n' y := by
      intro y hy
      have := height_lt_of_mem_steps hy
      exact ih (by omega) (by omega)
    rw [metUpTo, metUpTo, List.flatMap_congr hsame]

end

end KernelLint.Java
