import KernelLint.Java.Source
import KernelLint.Proofs.Java.Descent
import KernelLint.Proofs.Program.Tidy
import KernelLint.Resolve.Program
import KernelLint.Rule.Trap

/-!
# Traps in trees

Which `throw`, `try` and `assert` statements of a method declaration are statements of the method
that is read: those trees that the reading of the body meets as statements, each once and in order
(`traps_addMethod`). The step from the reader of smaller trees to that of larger ones is done for
each rule of the reader. A switch that stands as an expression has no statements, so a trap in it is
lost.
-/

namespace KernelLint

/-- A statement that no kernel may contain. -/
inductive Trap where
  | raise
  | attempt
  | assertion
  deriving DecidableEq

/-- The sort and the place of a trap. -/
def Stmt.trap? : Stmt → Option (Trap × Span)
  | .raise a _ => some (.raise, a.span)
  | .attempt a _ _ _ _ => some (.attempt, a.span)
  | .assertion a _ _ => some (.assertion, a.span)
  | _ => none

/-- The test by which the rules find the traps of a sort. -/
def Trap.test : Trap → Stmt → Bool
  | .raise => Stmt.isRaise
  | .attempt => Stmt.isAttempt
  | .assertion => Stmt.isAssertion

theorem Trap.test_eq (sort : Trap) (s : Stmt) :
    sort.test s = decide (s.trap?.map Prod.fst = some sort) := by
  cases s <;> cases sort <;> rfl

theorem Stmt.span_of_trap? {s : Stmt} {found : Trap × Span} (h : s.trap? = some found) :
    found.2 = s.span := by
  cases s <;> cases h <;> rfl

namespace Java

/-! ## Traps in trees -/

/-- The sort of trap that a node of some kind is. -/
def NodeKind.trap? : NodeKind → Option Trap
  | .throwStmt => some .raise
  | .tryStmt | .tryWithResources => some .attempt
  | .assertStmt => some .assertion
  | _ => none

/-- The sort of trap that a tree is. A `throw` and an `assert` without anything in them are none. -/
def Tree.trap? (t : Tree) : Option Trap :=
  (t.nodeKind?.bind NodeKind.trap?).filter fun sort => sort = .attempt || !t.parts.isEmpty

def ownTrap (t : Tree) : List (Trap × Span) := (t.trap?.map (·, t.span)).toList

/-! ## Traps in what is read -/

/-- The traps that a walk meets. -/
def traps (visits : List Visit) : List (Trap × Span) :=
  (visits.filterMap Visit.stmt?).filterMap Stmt.trap?

@[simp] theorem traps_nil : traps [] = [] := rfl

@[simp] theorem traps_append (vs ws : List Visit) : traps (vs ++ ws) = traps vs ++ traps ws := by
  simp [traps]

@[simp] theorem traps_expr (e : Expr) (vs : List Visit) : traps (.expr e :: vs) = traps vs := rfl

@[simp] theorem traps_localVar (l : Local) (vs : List Visit) :
    traps (.localVar l :: vs) = traps vs := rfl

@[simp] theorem traps_localClass (id : ClassId) (vs : List Visit) :
    traps (.localClass id :: vs) = traps vs := rfl

theorem traps_stmt (s : Stmt) (vs : List Visit) :
    traps (.stmt s :: vs) = s.trap?.toList ++ traps vs := by
  cases h : s.trap? <;> simp [traps, Visit.stmt?, h]

theorem traps_flatMap {α : Type} (walk : α → List Visit) (as : List α) :
    traps (as.flatMap walk) = as.flatMap fun a => traps (walk a) := by
  induction as with
  | nil => rfl
  | cons a rest ih => rw [List.flatMap_cons, traps_append, ih, List.flatMap_cons]

/-- The computation answers what satisfies `Q`, whatever the program is. -/
def Says {α : Type} (x : Build α) (Q : α → Prop) : Prop := ∀ p : Program, Q (x p).1

namespace Says

variable {α β : Type} {x : Build α} {f : α → Build β} {Q : α → Prop} {R : β → Prop}

theorem pure {a : α} (h : Q a) : Says (pure a) Q := fun _ => h

theorem bind (hx : Says x Q) (hf : ∀ a, Q a → Says (f a) R) :
    Says (x >>= f) R := fun p => hf _ (hx p) _

theorem after (hf : ∀ a, Says (f a) R) : Says (x >>= f) R := fun _ => hf _ _

theorem mono {Q' : α → Prop} (hx : Says x Q) (himp : ∀ a, Q a → Q' a) :
    Says x Q' := fun p => himp _ (hx p)

variable {γ : Type} {g : α → Build β} {found : α → List γ}

theorem mapM (walk : β → List γ) (hg : ∀ a, Says (g a) fun b => walk b = found a) (as : List α) :
    Says (as.mapM g) fun bs => bs.flatMap walk = as.flatMap found := by
  induction as with
  | nil => exact .pure rfl
  | cons a rest ih =>
    rw [List.mapM_cons]
    refine (hg a).bind fun b hb => ih.bind fun bs hbs => .pure ?_
    rw [List.flatMap_cons, List.flatMap_cons, hb, hbs]

theorem mapOption (walk : β → List γ) (hg : ∀ a, Says (g a) fun b => walk b = found a)
    (a : Option α) :
    Says (a.mapM g) fun b => b.toList.flatMap walk = a.toList.flatMap found := by
  cases a with
  | none => exact .pure rfl
  | some a => exact (hg a).bind fun b hb => .pure (by simpa using hb)

end Says

namespace Reader

/-- The traps in what is read of a tree are those of the given table. -/
structure Finds (r : Reader) (found : Mode × Tree → List (Trap × Span)) : Prop where
  expr : ∀ owner t, Says (r.expr owner t) fun e => traps e.visits = found (.expr, t)
  stmt : ∀ owner t, Says (r.stmt owner t) fun s => traps s.visits = found (.stmt, t)

theorem says_anchorOf (t : Tree) : Says (anchorOf t) fun a => a.span = t.span := fun _ => rfl

theorem says_emptyStmt (t : Tree) : Says (emptyStmt t) fun s => traps s.visits = [] :=
  .after fun _ => .pure rfl

variable {r : Reader} {found : Mode × Tree → List (Trap × Span)} (h : r.Finds found)
    (owner : ClassId) (t : Tree)
include h

/-! ### Expressions -/

theorem Finds.exprs (ts : List Tree) :
    Says (r.exprs owner ts) fun es => traps (Expr.visitsList es) = (asExprs ts).flatMap found := by
  refine (Says.mapM (fun e : Expr => traps e.visits) (h.expr owner) ts).mono fun es hes => ?_
  rw [Expr.visitsList_eq, traps_flatMap, hes, asExprs, List.flatMap_map]

theorem Finds.expr? (a : Option Tree) :
    Says (r.expr? owner a) fun e =>
      traps (Expr.visitsOption e) = (asExprs a.toList).flatMap found := by
  refine (Says.mapOption (fun e : Expr => traps e.visits) (h.expr owner) a).mono fun e he => ?_
  rw [Expr.visitsOption_eq, traps_flatMap, he, asExprs, List.flatMap_map]

theorem Finds.exprIn (part : Role) :
    Says (r.exprIn owner t part) fun e =>
      traps e.visits = (asExprs (inRoles t [part])).flatMap found := by
  unfold Reader.exprIn
  split
  · rename_i c hc
    exact (h.expr owner c).mono fun e he => by simp [he, inRoles, asExprs, hc]
  · rename_i hnone
    exact .after fun _ => .pure (by simp [Expr.visits, Expr.visitsList, inRoles, asExprs, hnone])

theorem Finds.exprsIn (part : Role) :
    Says (r.exprsIn owner t part) fun es =>
      traps (Expr.visitsList es) = (asExprs (inside t part)).flatMap found := by
  unfold Reader.exprsIn
  split
  · rename_i c hc
    exact (h.exprs owner c.parts).mono fun es hes => by simp [hes, inside, hc]
  · rename_i hnone
    exact .pure (by simp [Expr.visitsList, inside, asExprs, hnone])

theorem Finds.qualified (head : Excerpt) (object member : Option Tree) :
    Says (r.qualified owner head object member) fun e =>
      traps e.visits = (asExprs object.toList).flatMap found :=
  (h.expr? owner object).bind fun _ hobject => .pure (by simpa [Expr.visits] using hobject)

theorem Finds.head {α : Type} {walk : α → List Visit} {make : Expr → Build α} {empty : Build α}
    (hmake : ∀ e, Says (make e) fun a => traps (walk a) = traps e.visits)
    (hempty : Says empty fun a => traps (walk a) = []) :
    Says (match t.parts.head? with
      | some c => r.expr owner c >>= make
      | none => empty) fun a => traps (walk a) = (asExprs t.parts.head?.toList).flatMap found := by
  cases t.parts.head? with
  | none => exact hempty
  | some c => exact (h.expr owner c).bind fun e he =>
      (hmake e).mono fun a ha => by simp [ha, he, asExprs]

theorem Finds.evalStmt : Says
    (do let e ← r.expr owner t; return Stmt.eval (← anchorOf t) e) fun s =>
    traps s.visits = found (.expr, t) :=
  (h.expr owner t).bind fun _ he => .after fun _ =>
    .pure (by simpa [Stmt.visits, traps_stmt, Stmt.trap?] using he)

omit h in
theorem says_lambdaLocals :
    Says (lambdaLocals t) fun params => traps (Local.visitsList params) = [] := by
  have hone : ∀ {g : Tree → Build Local}, (∀ c, Says (g c) fun l => l.init = none) → ∀ c,
      Says (g c) fun l => traps l.visits = [] := by
    intro g hg c
    refine (hg c).mono fun l hl => ?_
    cases l
    simp only [Local.init] at hl
    simp [Local.visits, hl, Expr.visitsOption]
  have hlist : ∀ {g : Tree → Build Local}, (∀ c, Says (g c) fun l => l.init = none) →
    ∀ cs : List Tree,
      Says (cs.mapM g) fun params => traps (Local.visitsList params) = [] := by
    intro g hg cs
    refine (Says.mapM (fun l : Local => traps l.visits) (hone hg) cs).mono fun ls hls => ?_
    rw [Local.visitsList_eq, traps_flatMap, hls]
    simp
  have hinferred : ∀ c, Says (inferredLocal c) fun l => l.init = none := fun c =>
    .after fun _ => .after fun _ => .pure rfl
  have htyped : ∀ c, Says (typedLocal c) fun l => l.init = none :=
    fun c => .after fun _ => .after fun _ => .pure rfl
  unfold lambdaLocals
  split
  · refine (hone hinferred t).bind fun l hl => .pure ?_
    simpa [Local.visitsList] using hl
  · split
    · exact hlist hinferred _
    · exact hlist htyped _

theorem Finds.lambdaExpr (head : Excerpt) : Says (r.lambdaExpr owner head t) fun e =>
    traps e.visits = (asEither (·.isNode .block) (inRoles t [.body])).flatMap found := by
  have hbody : ∀ c, Says (r.lambdaBody owner c) fun s =>
      traps s.visits = (asEither (·.isNode .block) [c]).flatMap found := by
    intro c
    unfold lambdaBody
    split
    · rename_i hblock
      exact (h.stmt owner c).mono fun s hs => by simp [hs, asEither, hblock]
    · rename_i hexpr
      exact (h.evalStmt owner c).mono fun s hs => by simp [hs, asEither, hexpr]
  have hrest : ∀ params, traps (Local.visitsList params) = [] → Says (do
      match t.child? .body with
      | some b =>
        let body ← r.lambdaBody owner b
        return Expr.lambda head params body
      | none =>
        let body ← emptyStmt t
        return Expr.lambda head params body) fun e =>
          traps e.visits = (asEither (·.isNode .block) (inRoles t [.body])).flatMap found := by
    intro params hparams
    split
    · rename_i c hc
      exact (hbody c).bind fun body hbody =>
        .pure (by simp [Expr.visits, hparams, hbody, inRoles, hc])
    · rename_i hnone
      exact (says_emptyStmt t).bind fun body hbody =>
        .pure (by simp [Expr.visits, hparams, hbody, inRoles, hnone, asEither])
  unfold Reader.lambdaExpr
  dsimp only
  split
  · exact (says_lambdaLocals _).bind hrest
  · exact hrest [] rfl

theorem Finds.arrayExpr (head : Excerpt) : Says (r.arrayExpr owner head t) fun e =>
    traps e.visits = (exprSteps .arrayCreation t).flatMap found :=
  .after fun _ => (h.exprs owner _).bind fun _ hsizes =>
    (h.exprsIn owner t _).bind fun _ hentries =>
    .pure (by simp [Expr.visits, hsizes, hentries, exprSteps, asExprs])

theorem Finds.updateExpr (head : Excerpt) : Says (r.updateExpr owner head t) fun e =>
    traps e.visits = (asExprs t.parts.head?.toList).flatMap found :=
  h.head owner t (fun _ => .pure rfl) (.pure rfl)

theorem Finds.nodeExpr (head : Excerpt) (kind : NodeKind) :
    Says (r.nodeExpr owner head kind t) fun e =>
    traps e.visits = (exprSteps kind t).flatMap found := by
  unfold Reader.nodeExpr
  split
  · exact (h.qualified owner head _ _).mono fun e he => by simp [he, exprSteps, inRoles]
  · exact h.qualified owner head _ _
  · exact h.qualified owner head _ _
  · exact (h.expr? owner _).bind fun _ hobject => (h.exprsIn owner t _).bind fun _ hargs =>
      .pure (by simp [Expr.visits, hobject, hargs, exprSteps, inRoles, asExprs])
  · exact .after fun _ => (h.exprsIn owner t _).bind fun _ hargs =>
      .pure (by simp [Expr.visits, hargs, exprSteps])
  · exact h.head owner t (fun _ => .pure rfl) (.pure rfl)
  · exact (h.exprIn owner t _).bind fun _ he => .pure (by simp [Expr.visits, he, exprSteps])
  · exact h.updateExpr owner t head
  · exact (h.exprIn owner t _).bind fun _ hleft => (h.exprIn owner t _).bind fun _ hright =>
      .pure (by simp [Expr.visits, hleft, hright, exprSteps, inRoles, asExprs])
  · exact (h.exprIn owner t _).bind fun _ hcondition => (h.exprIn owner t _).bind fun _ htrue =>
      (h.exprIn owner t _).bind fun _ hfalse =>
        .pure (by simp [Expr.visits, hcondition, htrue, hfalse, exprSteps, inRoles, asExprs])
  · exact .after fun _ => (h.exprIn owner t _).bind fun _ he =>
      .pure (by simp [Expr.visits, he, exprSteps])
  · exact (h.exprIn owner t _).bind fun _ hleft => (h.exprIn owner t _).bind fun _ hright =>
      .pure (by simp [Expr.visits, hleft, hright, exprSteps, inRoles, asExprs])
  · exact (h.exprIn owner t _).bind fun _ hleft => (h.exprIn owner t _).bind fun _ hright =>
      .pure (by simp [Expr.visits, hleft, hright, exprSteps, inRoles, asExprs])
  · exact h.arrayExpr owner t head
  · exact (h.exprs owner _).bind fun _ hes =>
      .pure (by simp [Expr.visits, Expr.visitsList, hes, exprSteps])
  · exact h.lambdaExpr owner t head
  · have hdefault : exprSteps kind t = asExprs t.parts := by
      unfold exprSteps
      split <;> first | rfl | contradiction
    rw [hdefault]
    exact (h.exprs owner _).bind fun _ hes => .pure (by simp [Expr.visits, hes])

theorem Finds.exprStep : Says (r.exprStep owner t) fun e =>
    traps e.visits = (steps (.expr, t)).flatMap found := by
  refine .after fun head => ?_
  split
  · exact .pure rfl
  · exact .pure rfl
  · exact .pure rfl
  · exact .pure rfl
  · exact .pure rfl
  · exact h.nodeExpr owner _ head _

/-! ### Statements -/

omit h in
theorem says_stmts {g : Tree → Build Stmt} {out : Tree → List (Trap × Span)}
    (hg : ∀ c, Says (g c) fun s => traps s.visits = out c) (ts : List Tree) :
    Says (ts.mapM g) fun ss => traps (Stmt.visitsList ss) = ts.flatMap out := by
  refine (Says.mapM (fun s : Stmt => traps s.visits) hg ts).mono fun ss hss => ?_
  rw [Stmt.visitsList_eq, traps_flatMap, hss]

theorem Finds.stmts (ts : List Tree) :
    Says (r.stmts owner ts) fun ss => traps (Stmt.visitsList ss) = (asStmts ts).flatMap found := by
  refine (says_stmts (h.stmt owner) ts).mono fun ss hss => ?_
  rw [hss, asStmts, List.flatMap_map]

theorem Finds.stmt? (a : Option Tree) :
    Says (r.stmt? owner a) fun s =>
      traps (Stmt.visitsOption s) = (asStmts a.toList).flatMap found := by
  refine (Says.mapOption (fun s : Stmt => traps s.visits) (h.stmt owner) a).mono fun s hs => ?_
  rw [Stmt.visitsOption_eq, traps_flatMap, hs, asStmts, List.flatMap_map]

theorem Finds.stmtIn (part : Role) :
    Says (r.stmtIn owner t part) fun s =>
      traps s.visits = (asStmts (inRoles t [part])).flatMap found := by
  unfold Reader.stmtIn
  split
  · rename_i c hc
    exact (h.stmt owner c).mono fun s hs => by simp [hs, inRoles, asStmts, hc]
  · rename_i hnone
    exact (says_emptyStmt t).mono fun s hs => by simp [hs, inRoles, asStmts, hnone]

theorem Finds.declaredLocals : Says (r.declaredLocals owner t) fun ls =>
    traps (Local.visitsList ls) = (stmtSteps .localDecl t).flatMap found := by
  have hlocal : ∀ base c, Says (r.declaredLocal owner base c) fun l =>
      traps l.visits = (asExprs (inRoles c [.value])).flatMap found := by
    intro base c
    refine .after fun _ => (h.expr? owner _).bind fun _ hinit => .after fun _ => .pure ?_
    simp [Local.visits, hinit, inRoles]
  refine .after fun base => (Says.mapM (fun l : Local => traps l.visits) (hlocal base) _).mono
    fun ls hls => ?_
  rw [Local.visitsList_eq, traps_flatMap, hls]
  simp [stmtSteps, asExprs, List.flatMap_map, List.flatMap_assoc]

theorem Finds.either {isStmt : Tree → Bool} (c : Tree) :
    Says (if isStmt c then r.stmt owner c else do
      let e ← r.expr owner c
      return Stmt.eval (← anchorOf c) e) fun s =>
        traps s.visits = found (if isStmt c then .stmt else .expr, c) := by
  split
  · exact h.stmt owner c
  · exact h.evalStmt owner c

theorem Finds.forEachStmt : Says (r.forEachStmt owner t) fun s =>
    traps s.visits = (stmtSteps .enhancedForStmt t).flatMap found :=
  .after fun _ => .after fun _ => (h.exprIn owner t _).bind fun _ hvalue =>
    (h.stmtIn owner t _).bind fun _ hbody =>
    .after fun _ => .pure (by
      simp [Stmt.visits, traps_stmt, Stmt.trap?, Local.visits, Expr.visitsOption, hvalue,
        hbody, stmtSteps])

theorem Finds.resourceStmt : Says (r.resourceStmt owner t) fun s =>
    traps s.visits = (asExprs (resourceValue t)).flatMap found := by
  unfold Reader.resourceStmt resourceValue
  split
  · rename_i type htype
    refine .after fun _ => (h.expr? owner _).bind fun _ hvalue =>
      .after fun _ => .after fun _ => .pure ?_
    simp [Stmt.visits, traps_stmt, Stmt.trap?, Local.visitsList, Local.visits, hvalue,
      htype, inRoles]
  · rename_i hnone
    rw [hnone]
    exact h.head owner t (fun _ => .after fun _ => .pure rfl) (says_emptyStmt t)

theorem Finds.handlerOf? : Says (r.handlerOf? owner t) fun x =>
    traps (x.elim [] Handler.visits) = (asStmts (handlerBody t)).flatMap found := by
  unfold Reader.handlerOf? handlerBody
  split
  · rename_i hnone
    exact .pure (by simp [hnone, asStmts])
  · rename_i param hparam
    refine .after fun _ => .after fun _ => (h.stmtIn owner t _).bind fun _ hbody => .pure ?_
    simp [Handler.visits, Local.visits, Expr.visitsOption, hbody, hparam]

theorem Finds.attemptStmt : Says (r.attemptStmt owner t) fun s =>
    traps s.visits = (.attempt, t.span) :: (stmtSteps .tryStmt t).flatMap found := by
  have hrest : ∀ resources, traps (Stmt.visitsList resources) =
      (asExprs ((inside t .resources).flatMap resourceValue)).flatMap found → Says (do
        let body ← r.stmtIn owner t .body
        let handlers ← (t.parts.filter (·.isNode .catchClause)).mapM (r.handlerOf? owner)
        let last ← r.stmt? owner ((t.childOf? .finallyClause).bind (·.parts.head?))
        return Stmt.attempt (← anchorOf t) resources body (handlers.filterMap id) last) fun s =>
          traps s.visits = (.attempt, t.span) :: (stmtSteps .tryStmt t).flatMap found := by
    intro resources hresources
    refine (h.stmtIn owner t _).bind fun body hbody => ?_
    refine (Says.mapM (fun x : Option Handler => traps (x.elim [] Handler.visits))
      (h.handlerOf? owner) _).bind
      fun handlers hhandlers => (h.stmt? owner _).bind fun last hlast =>
        (says_anchorOf t).bind fun a ha => .pure ?_
    have hclauses : traps (Handler.visitsList (handlers.filterMap id)) =
        (asStmts ((t.parts.filter (·.isNode .catchClause)).flatMap handlerBody)).flatMap found := by
      rw [Handler.visitsList_filterMap, traps_flatMap, hhandlers]
      simp [asStmts, List.flatMap_map, List.flatMap_assoc]
    have hparts : traps (Stmt.attempt a resources body (handlers.filterMap id) last).visits =
      (.attempt, a.span) ::
        (traps (Stmt.visitsList resources) ++
          (traps body.visits ++ (traps (Handler.visitsList (handlers.filterMap id)) ++
          traps (Stmt.visitsOption last)))) := by
      simp [Stmt.visits, traps_stmt, Stmt.trap?]
    rw [hparts, hresources, hbody, hclauses, hlast, ha]
    simp [stmtSteps, asStmts, List.flatMap_append]
  unfold Reader.attemptStmt
  dsimp only
  split
  · rename_i spec hspec
    refine (says_stmts (h.resourceStmt owner) _).bind fun resources hresources => hrest resources ?_
    simp [hresources, inside, hspec, asExprs, List.flatMap_map, List.flatMap_assoc]
  · rename_i hnone
    exact hrest [] (by simp [Stmt.visitsList, inside, hnone, asExprs])

theorem Finds.switchStmts : Says (r.switchStmts owner t) fun ss =>
    traps (Stmt.visitsList ss) = (asEither isStatement (switchParts t)).flatMap found := by
  have hentries : ((t.child? .body).map Tree.parts).getD [] = inside t .body := by
    unfold inside
    cases t.child? .body <;> simp
  refine (says_stmts (h.either owner) _).mono fun ss hss => ?_
  rw [hss, hentries, asEither, List.flatMap_map]
  rfl

theorem Finds.aroundExpr {make : Anchor → Expr → Stmt} {own : List (Trap × Span)}
    (hempty : t.parts = [] → own = [])
    (hmake : t.parts ≠ [] → ∀ a e, a.span = t.span →
      traps (make a e).visits = own ++ traps e.visits) :
    Says (r.aroundExpr owner t make) fun s =>
      traps s.visits = own ++ (asExprs t.parts.head?.toList).flatMap found := by
  unfold Reader.aroundExpr
  cases hparts : t.parts with
  | nil =>
    rw [hempty hparts]
    exact says_emptyStmt t
  | cons c rest =>
    have hsome := hmake (by simp [hparts])
    exact (h.expr owner c).bind fun e he => (says_anchorOf t).bind fun a ha =>
      .pure (by simp [hsome a e ha, he, asExprs])

theorem Finds.plainStmt {kind : NodeKind} (hkind : kind.trap? = none) :
    Says (r.nodeStmt owner kind t) fun s =>
    traps s.visits = (stmtSteps kind t).flatMap found := by
  have hblock : Says (do let inner ← r.stmts owner t.parts; return Stmt.block (← anchorOf t) inner)
    fun s =>
      traps s.visits = (asStmts t.parts).flatMap found :=
    (h.stmts owner _).bind fun _ hinner => .after fun _ =>
      .pure (by simp [Stmt.visits, traps_stmt, Stmt.trap?, hinner])
  have hloop : Says (do
      let condition ← r.expr? owner (t.child? .condition)
      let body ← r.stmtIn owner t .body
      return Stmt.loop (← anchorOf t) [] condition [] body) fun s =>
        traps s.visits = (stmtSteps .whileStmt t).flatMap found :=
    (h.expr? owner _).bind fun _ hcondition =>
      (h.stmtIn owner t _).bind fun _ hbody => .after fun _ => .pure (by
      simp [Stmt.visits, traps_stmt, Stmt.trap?, Stmt.visitsList, Expr.visitsList, hcondition,
        hbody, stmtSteps, inRoles])
  have hlabeled : Says (do
      let inner ← r.stmts owner (t.parts.filter isStatement)
      let exprs ← r.exprs owner (t.parts.filter (·.isNode .paren))
      return Stmt.other (← anchorOf t) inner exprs) fun s =>
        traps s.visits = (stmtSteps .labeledStmt t).flatMap found :=
    (h.stmts owner _).bind fun _ hinner =>
      (h.exprs owner _).bind fun _ hexprs => .after fun _ => .pure (by
      simp [Stmt.visits, traps_stmt, Stmt.trap?, hinner, hexprs, stmtSteps])
  have hother : ∀ {x : Build (List Expr)} {ts : List Tree},
      (Says x fun es => traps (Expr.visitsList es) = (asExprs ts).flatMap found) →
      Says (do let exprs ← x; return Stmt.other (← anchorOf t) [] exprs) fun s =>
        traps s.visits = (asExprs ts).flatMap found := by
    intro x ts hx
    exact hx.bind fun _ hexprs => .after fun _ => .pure (by
      simp [Stmt.visits, traps_stmt, Stmt.trap?, Stmt.visitsList, hexprs])
  have hclass : Says (do
      let declared ← r.type (some owner) (ownerName owner (← get)) true t
      return Stmt.localClass (← anchorOf t) declared) fun s => traps s.visits = [] :=
    .after fun _ => .after fun _ => .after fun _ => .pure rfl
  -- One case for each rule of the reader, in its order. `hkind` rules `throw`, `try` and `assert`
  -- out.
  unfold Reader.nodeStmt
  split
  · exact hblock
  · exact hblock
  · exact h.aroundExpr owner t (fun _ => rfl) fun _ a e _ => by
      simp [Stmt.visits, traps_stmt, Stmt.trap?]
  · cases hkind
  · exact (h.declaredLocals owner t).bind fun _ hlocals => .after fun _ => .pure (by
      simp [Stmt.visits, traps_stmt, Stmt.trap?, hlocals])
  · exact (h.exprIn owner t _).bind fun _ hcondition => (h.stmtIn owner t _).bind fun _ htrue =>
      (h.stmt? owner _).bind fun _ hfalse => .after fun _ => .pure (by
        simp [Stmt.visits, traps_stmt, Stmt.trap?, hcondition, htrue, hfalse, stmtSteps,
          asStmts, inRoles])
  · exact hloop
  · exact hloop
  · refine (says_stmts (h.either owner) _).bind fun _ hinit =>
      (h.expr? owner _).bind fun _ hcondition =>
      (h.exprs owner _).bind fun _ hupdate =>
        (h.stmtIn owner t _).bind fun _ hbody => .after fun _ => .pure ?_
    simp [Stmt.visits, traps_stmt, Stmt.trap?, hinit, hcondition, hupdate, hbody, stmtSteps,
      asEither, asExprs, inRoles, List.flatMap_map]
  · exact h.forEachStmt owner t
  · refine (h.expr? owner _).bind fun _ hvalue => .after fun _ => .pure ?_
    simp [Stmt.visits, traps_stmt, Stmt.trap?, hvalue, stmtSteps]
  · cases hkind
  · cases hkind
  · cases hkind
  · exact hclass
  · exact hclass
  · exact hclass
  · exact hclass
  · exact hclass
  · exact hother (h.exprsIn owner t _)
  · refine (h.exprs owner _).bind fun _ hcondition =>
      (h.switchStmts owner t).bind fun _ hinner => .after fun _ => .pure ?_
    simp [Stmt.visits, traps_stmt, Stmt.trap?, hcondition, hinner, stmtSteps, inRoles]
  · exact hlabeled
  · exact hlabeled
  · exact says_emptyStmt t
  · exact says_emptyStmt t
  · exact says_emptyStmt t
  · have hsteps : stmtSteps kind t = asExprs t.parts := by
      unfold stmtSteps
      split <;> first | rfl | contradiction
    rw [hsteps]
    exact hother (h.exprs owner _)

theorem Finds.nodeStmt {kind : NodeKind} (hkind : t.nodeKind? = some kind) :
    Says (r.nodeStmt owner kind t) fun s =>
    traps s.visits = ownTrap t ++ (stmtSteps kind t).flatMap found := by
  have hown :
      ownTrap t = ((kind.trap?.filter fun sort => sort = .attempt || !t.parts.isEmpty).map
        (·, t.span)).toList := by
    rw [ownTrap, Tree.trap?, hkind, Option.bind_some]
  have hattempt : ownTrap t = [(.attempt, t.span)] → Says (r.attemptStmt owner t) fun s =>
      traps s.visits = ownTrap t ++ (stmtSteps .tryStmt t).flatMap found := by
    intro hsingle
    rw [hsingle]
    exact h.attemptStmt owner t
  -- Without anything in it a `throw` or an `assert` is read as an empty statement, and `ownTrap`
  -- leaves it out as well.
  cases kind with
  | throwStmt =>
    refine h.aroundExpr owner t (fun hparts => ?_) fun hparts a e ha => ?_
    · simp [hown, NodeKind.trap?, hparts, Option.filter]
    · simp [hown, NodeKind.trap?, hparts, Option.filter, Stmt.visits, traps_stmt, Stmt.trap?, ha]
  | tryStmt => exact hattempt hown
  | tryWithResources => exact hattempt hown
  | assertStmt =>
    simp only [Reader.nodeStmt]
    cases hparts : t.parts with
    | nil =>
      simpa [hown, NodeKind.trap?, Option.filter, stmtSteps, hparts, asExprs] using says_emptyStmt t
    | cons condition rest =>
      refine (h.expr owner _).bind fun _ hcondition => (h.expr? owner _).bind fun _ hmessage =>
        (says_anchorOf t).bind fun _ ha => .pure ?_
      have htake : rest.take 1 = rest.head?.toList := by cases rest <;> rfl
      simp [Stmt.visits, traps_stmt, Stmt.trap?, ha, hcondition, hmessage, hown, NodeKind.trap?,
        Option.filter, stmtSteps, hparts, asExprs, htake]
  | _ =>
    rw [hown]
    exact h.plainStmt owner t rfl

theorem Finds.stmtStep : Says (r.stmtStep owner t) fun s =>
    traps s.visits = ownTrap t ++ (steps (.stmt, t)).flatMap found := by
  unfold Reader.stmtStep
  split
  · exact says_emptyStmt _
  · exact h.nodeStmt owner _ rfl

omit h in
theorem finds_below (file : FileId) (n : Nat) :
    (below file n).Finds fun x => (metUpTo n x).flatMap ownTrap := by
  induction n with
  | zero =>
    -- A reader of this depth reads nothing inside a tree, and nothing is met.
    refine ⟨fun owner t => ?_, fun owner t => says_emptyStmt t⟩
    exact .after fun _ => .pure rfl
  | succ n ih =>
    refine ⟨fun owner t => (ih.exprStep owner t).mono fun e he => ?_,
      fun owner t => (ih.stmtStep owner t).mono fun s hs => ?_⟩
    · rw [he]
      simp [metUpTo, List.flatMap_assoc]
    · rw [hs]
      simp [metUpTo, List.flatMap_assoc]

end Reader

/-! ## Methods -/

/-- The trees in the body of a declaration that are met as statements. -/
def bodyStmts (t : Tree) : List Tree := (t.child? .body).toList.flatMap fun b => metUpTo
    (b.height + 1) (.stmt, b)

theorem mem_bodyStmts {t u : Tree} : u ∈ bodyStmts t ↔ ∃ b, t.child? .body = some b ∧ Meets
    (.stmt, b) (.stmt, u) := by
  simp only [bodyStmts, List.mem_flatMap, Option.mem_toList]
  exact exists_congr fun b => and_congr_right fun _ => mem_metUpTo_iff (Nat.lt_succ_self b.height)

theorem traps_bodyStmts {found : Mode × Tree → List (Trap × Span)} {n : Nat} {t : Tree}
    (hn : t.height ≤ n) (hfound : found = fun x => (metUpTo n x).flatMap ownTrap) :
    (asStmts (t.child? .body).toList).flatMap found = (bodyStmts t).flatMap ownTrap := by
  subst hfound
  rw [bodyStmts, List.flatMap_assoc, asStmts, List.flatMap_map]
  refine List.flatMap_congr fun b hb => ?_
  have hlower := lower_child? _ b hb
  have hheight : b.height < n := by omega
  rw [metUpTo_eq (x := (.stmt, b)) hheight (Nat.lt_succ_self b.height)]

theorem filter_test (sort : Trap) (ss : List Stmt) :
    (ss.filter sort.test).map Stmt.span =
      ((ss.filterMap Stmt.trap?).filter (·.1 = sort)).map Prod.snd := by
  induction ss with
  | nil => rfl
  | cons s rest ih =>
    rw [List.filter_cons, List.filterMap_cons, Trap.test_eq]
    cases htrap : s.trap? with
    | none => simpa using ih
    | some found => by_cases hsort : found.1 = sort <;> simp [hsort, Stmt.span_of_trap? htrap, ih]

theorem filter_ownTrap (sort : Trap) (ts : List Tree) :
    ((ts.flatMap ownTrap).filter (·.1 = sort)).map Prod.snd =
      (ts.filter (·.trap? = some sort)).map Tree.span := by
  induction ts with
  | nil => rfl
  | cons t rest ih =>
    rw [List.flatMap_cons, List.filter_append, List.map_append, ih, ownTrap, List.filter_cons]
    cases htrap : t.trap? with
    | none => simp
    | some sort' =>
      by_cases hsort : sort' = sort <;> simp [hsort]

/-- **The traps of a method are the trap trees that are met as statements.** Whatever a method
declaration contains, the method that is read of it stands at its place, and for each sort of trap
the statements that are found by the test of the rules stand at the places of those trees of that
sort, each once and in this order. Any other tree in the body is met as an expression, or the
reading gets to a tree around it and does not go on towards it. -/
theorem traps_addMethod (file : FileId) (n : Nat) (owner : ClassId) (t : Tree) (p : Program)
    (h : t.height ≤ n) :
    ∃ (before : Program) (m : Method), ((Reader.below file n).addMethod owner file t p).2 =
      (before.addMethod m).2 ∧
      m.span = t.span ∧
      (∀ sort : Trap, (m.stmts.filter sort.test).map Stmt.span =
        ((bodyStmts t).filter (·.trap? = some sort)).map Tree.span) ∧
      (∀ u, u ∈ bodyStmts t ↔ ∃ b, t.child? .body = some b ∧ Meets (.stmt, b) (.stmt, u)) ∧
      ∀ b u, t.child? .body = some b → Within b u → u ∈ bodyStmts t ∨ Meets (.stmt, b) (.expr, u) ∨
        ∃ x, Meets (.stmt, b) x ∧ Within x.2 u ∧ x.2 ≠ u ∧ ∀ y ∈ steps x, ¬ Within y.2 u := by
  refine ⟨_, _, rfl, rfl, fun sort => ?_, fun u => mem_bodyStmts, fun b u hb hu => ?_⟩
  · rw [filter_test, ← filter_ownTrap, ← traps_bodyStmts h rfl]
    exact congrArg (fun found => (found.filter (·.1 = sort)).map Prod.snd)
      ((Reader.finds_below file n).stmt? owner (t.child? .body) _)
  · -- The reading comes to an end on its way to `u`, at `u` itself or at a tree around it.
    obtain ⟨⟨mode, v⟩, hmeets, hwithin, hlast⟩ := exists_last (x := (.stmt, b)) hu
    by_cases hv : v = u
    · subst hv
      cases mode with
      | expr => exact .inr (.inl hmeets)
      | stmt => exact .inl (mem_bodyStmts.mpr ⟨b, hb, hmeets⟩)
    · exact .inr (.inr ⟨(mode, v), hmeets, hwithin, hv, hlast⟩)

/-- The declaration of the first method in a source text with one class. -/
def firstMethod (source : String) : Tree :=
  (((Tree.ofSource source).parts.head?.bind (·.child? .body)).bind (·.parts.head?)).getD default

/-- A method with a trap of each sort, below a label, a loop and a switch, in a handler, and in a
lambda. -/
def trapped : Tree :=
  firstMethod
    "class K { void k(int a) { synchronized (this) { l: for (;;) { switch (a) { case 1 -> throw null;
    default -> { } } } } f(x -> { try { } catch (E e) { assert a > 0 : e; } }); } }"

theorem traps_addMethod_trapped :
    ([Trap.raise, .attempt, .assertion].map fun sort =>
      ((bodyStmts trapped).filter (·.trap? = some sort)).length) =
      [1, 1, 1] ∧
    ∃ (before : Program) (m : Method),
      ((Reader.below ⟨0⟩ 40).addMethod ⟨0⟩ ⟨0⟩ trapped Program.empty).2 = (before.addMethod m).2 ∧
      m.span = trapped.span ∧
      (∀ sort : Trap, (m.stmts.filter sort.test).map Stmt.span =
        ((bodyStmts trapped).filter (·.trap? = some sort)).map Tree.span) ∧
      (∀ u, u ∈ bodyStmts trapped ↔ ∃ b, trapped.child? .body = some b ∧
        Meets (.stmt, b) (.stmt, u)) ∧
      ∀ b u, trapped.child? .body = some b → Within b u →
        u ∈ bodyStmts trapped ∨ Meets (.stmt, b) (.expr, u) ∨
        ∃ x, Meets (.stmt, b) x ∧ Within x.2 u ∧ x.2 ≠ u ∧ ∀ y ∈ steps x, ¬ Within y.2 u := by
  have hfacts : ([Trap.raise, .attempt, .assertion].map fun sort =>
      ((bodyStmts trapped).filter (·.trap? = some sort)).length) = [1, 1, 1] ∧
      trapped.height ≤ 40 := by
    decide +kernel
  exact ⟨hfacts.1, traps_addMethod ⟨0⟩ 40 ⟨0⟩ trapped .empty hfacts.2⟩

/-- A `throw` in a switch whose value initializes a variable, outside all nested classes. No
statement of the method that is read is a `throw`. -/
theorem throw_in_switch_value_lost :
    let source :=
  "class K { void k(int a) { int x = switch (a) { case 1 -> throw null; default -> 2; }; } }"
    ((firstMethod source).child? .body).map (·.occurs [.throwStmt]) = some true ∧
    (firstMethod source).occurs [.classDecl, .interfaceDecl, .enumDecl, .recordDecl,
      .annotationTypeDecl, .classBody, .error] = false ∧
    ((Program.empty.addSource ⟨"K.java"⟩ source .project).2.methods.map fun m =>
      (m.name, (m.stmts.filter Stmt.isRaise).length)) = [("k", 0)] := by
  decide +kernel

end Java

end KernelLint
