import KernelLint.Proofs.Resolve.Echo

/-!
# Bodies resolved again

The traversal of a body, repeated on its own answer in the program that the whole resolution leaves,
answers the same once more (`echoes_stmt`). This takes two things. The names that the body mentions
keep their meaning, which is said of the body as it was written; and the names, calls and variables
that were resolved are resolved for good, which is said of the body as the traversal left it.
-/

namespace KernelLint

/-- The simple names that are looked up for a stop of the walk: capital names, and the first
segments of types. -/
def Visit.mentioned : Visit → List String
  | .expr (.name _ id none _) => if Text.startsUppercase id then [id] else []
  | .expr (.create _ type _ _) => [Text.firstSegment type.type.name]
  | .expr (.cast _ type _) => [Text.firstSegment type.type.name]
  | .expr (.newArray _ (some type) _ _) => [Text.firstSegment type.type.name]
  | .localVar l => [Text.firstSegment l.type.type.name]
  | _ => []

/-- What is asked of a stop in a body before it is resolved: the names that it mentions keep their
meaning. -/
def Visit.Settled (p q : Program) (site : Site) (v : Visit) :
    Prop := ∀ name ∈ v.mentioned, p.Steady q name site

/-- What is asked of a stop in a body after it is resolved: no stand-in is what a name should have
denoted, none suits a call better than the method that was found, and the name of the type of a
variable keeps its meaning. -/
def Visit.Firm (p q : Program) (site : Site) : Visit → Prop
  | .expr (.name _ id qualifier target) => Resolve.Unmissed p q site id qualifier target
  | .expr (.call _ _ _ args (some method)) => q.BestFor method args.length
  | .localVar l => p.Rests q l.type.type.name site
  | _ => True

theorem Local.visits_eq (l : Local) : l.visits = .localVar l :: Expr.visitsOption l.init := by
  cases l
  rw [Local.visits]
  rfl

namespace Resolve

variable {p q : Program} {site : Site} {outer : Names} {s : Resolution}

/-! ## The equations of the traversal -/

theorem pure_apply {α : Type} (a : α) (s : Resolution) : (pure a : Resolve α) s = (a, s) := rfl

theorem declareAll_cons (l : Local) (rest : List Local) (names : Names) :
    declareAll site (l :: rest) names =
    (declare l.anchor l.name l.type l.init names site >>= fun first =>
      declareAll site rest first.2 >>= fun others => pure (first.1 :: others.1, others.2)) := by
  cases l
  rw [declareAll]
  rfl

theorem expr_lambda (names : Names) (head : Excerpt) (params : List Local) (body : Stmt) :
    expr site names (.lambda head params body) =
      (declareAll site params names >>= fun params => stmt site params.2 body >>= fun body =>
        pure (.lambda head params.1 body.1)) := by
  rw [expr]

theorem stmt_declare (names : Names) (head : Anchor) (locals : List Local) :
    stmt site names (.declare head locals) =
    (declared site names locals >>= fun locals => pure (.declare head locals.1, locals.2)) := by
  rw [stmt]

theorem stmt_block (names : Names) (head : Anchor) (inner : List Stmt) :
    stmt site names (.block head inner) =
    (stmts site names inner >>= fun inner => pure (.block head inner.1, names)) := by
  rw [stmt]

theorem stmt_branch (names : Names) (head : Anchor) (c : Expr) (t : Stmt) (f : Option Stmt) :
    stmt site names (.branch head c t f) =
      (expr site names c >>= fun c => stmt site names t >>= fun t => stmtOption site names f >>=
        fun f =>
        pure (.branch head c t.1 f.1, names)) := by
  rw [stmt]

theorem stmt_loop (names : Names) (head : Anchor) (init : List Stmt) (c : Option Expr)
    (update : List Expr) (body : Stmt) : stmt site names (.loop head init c update body) =
      (stmts site names init >>= fun init => exprOption site init.2 c >>=
        fun c => exprs site init.2 update >>= fun update =>
        stmt site init.2 body >>= fun body => pure (.loop head init.1 c update body.1, names)) := by
  rw [stmt]

theorem stmt_forEach (names : Names) (head : Anchor) (item : Local) (iterable : Expr)
    (body : Stmt) :
    stmt site names (.forEach head item iterable body) =
      (expr site names iterable >>= fun iterable =>
        declareInferred site (some iterable) (·.bind ErasedType.entry?)
          item.anchor item.name item.type item.init names
          >>= fun item => stmt site item.2 body >>= fun body =>
            pure (.forEach head item.1 iterable body.1, names)) := by
  cases item
  rw [stmt]
  rfl

theorem stmt_attempt (names : Names) (head : Anchor) (resources : List Stmt) (body : Stmt)
    (clauses : List Handler) (last : Option Stmt) :
    stmt site names (.attempt head resources body clauses last) =
      (stmts site names resources >>= fun resources => stmt site resources.2 body >>= fun body =>
        handlers site names clauses >>= fun clauses => stmtOption site names last >>= fun last =>
          pure (.attempt head resources.1 body.1 clauses last.1, last.2)) := by
  rw [stmt]

theorem stmt_other (names : Names) (head : Anchor) (inner : List Stmt) (values : List Expr) :
    stmt site names (.other head inner values) =
      (exprs site names values >>= fun values => stmts site names inner >>= fun inner =>
        pure (.other head inner.1 values, names)) := by
  rw [stmt]

theorem stmts_cons (names : Names) (s : Stmt) (rest : List Stmt) : stmts site names (s :: rest) =
    (stmt site names s >>= fun s => stmts site s.2 rest >>=
      fun rest => pure (s.1 :: rest.1, rest.2)) := by
  rw [stmts]

theorem stmtOption_some (names : Names) (s : Stmt) : stmtOption site names (some s) =
    (stmt site names s >>= fun s => pure (some s.1, s.2)) := by
  rw [stmtOption]

theorem declared_cons (names : Names) (l : Local) (rest : List Local) :
    declared site names (l :: rest) =
    (exprOption site names l.init >>= fun init =>
      declareInferred site init (fun type => type) l.anchor l.name l.type init names >>=
        fun first =>
        declared site first.2 rest >>= fun others => pure (first.1 :: others.1, others.2)) := by
  cases l
  rw [declared]
  rfl

theorem handlers_cons (names : Names) (clause : Handler) (rest : List Handler) :
    handlers site names (clause :: rest) =
    (declare clause.param.anchor clause.param.name clause.param.type clause.param.init names
      site >>= fun param =>
      stmt site param.2 clause.body >>= fun body => handlers site names rest >>= fun rest =>
        pure (.mk param.1 body.1 :: rest)) := by
  obtain ⟨⟨head, name, type, init⟩, body⟩ := clause
  rw [handlers]
  rfl

/-! ## Single stops -/

theorem isAimed_of_spots {r : Program} {scope : List Local} {e : Expr}
    (h : ∀ spot ∈ e.spots scope, spot.expr.WellAimed r) : ∀ x ∈ some e, x.IsAimed r := by
  rintro x ⟨⟩
  exact ⟨scope, h⟩

theorem isAimed_of_spotsOption {r : Program} {scope : List Local} {e : Option Expr}
    (h : ∀ spot ∈ Expr.spotsOption scope e, spot.expr.WellAimed r) : ∀ x ∈ e, x.IsAimed r := by
  rintro x rfl
  rw [Expr.spotsOption] at h
  exact isAimed_of_spots h x rfl

theorem steady_of_settled {head : Excerpt} {id : String} {qualifier : Option Expr}
    {target : Option Declaration}
    (h : Visit.Settled p q site (.expr (.name head id qualifier target)))
    (hsimple : qualifier = none) (hupper : Text.startsUppercase id = true) :
    p.Steady q id site := by
  subst hsimple
  exact h id (by simp [Visit.mentioned, hupper])

theorem keepsMethod_of_firm {head : Excerpt} {id : String} {qualifier : Option Expr}
    {args : List Expr} {target : Option MethodId}
    (hfirm : Visit.Firm p q site (.expr (.call head id qualifier args target))) :
    KeepsMethod q args.length target := by
  rintro m rfl
  exact hfirm

theorem adds_exprs (site : Site) (names : Names) (es : List Expr) (s : Resolution) :
    s.program.Adds (exprs site names es s).2.program :=
  (yields_exprs (aims_trivial s.program site names) [] es).adds s (.refl _)

theorem echoes_element (h : site.Calm p q) {head : Excerpt} {element : Option TypeUse}
    {sizes entries : List Expr}
    (hsettled : Visit.Settled p q site (.expr (.newArray head element sizes entries))) :
    Echoes p q (element.mapM (qualifyUse · site))
      ((element.mapM (qualifyUse · site) s).1.mapM (qualifyUse · site)) s := by
  cases element with
  | none => exact .pure none
  | some type =>
    have hsteady := hsettled (Text.firstSegment type.type.name) (by simp [Visit.mentioned])
    change Echoes p q (qualifyUse type site >>= fun type => pure (some type))
      (qualifyUse (qualifyUse type site s).1 site >>= fun type => pure (some type)) s
    exact (echoes_qualifyUse h hsteady).bind (.pure _)

theorem echoes_declareAll (h : site.Calm p q) (locals : List Local) (names : Names) (s : Resolution)
    (hsettled : ∀ v ∈ Local.visitsList locals, v.Settled p q site) :
    Echoes p q (declareAll site locals names)
      (declareAll site (declareAll site locals names s).1.1 names) s := by
  induction locals generalizing names s with
  | nil => exact .pure _
  | cons l rest ih =>
    simp only [Local.visitsList, Local.visits_eq, List.forall_mem_append,
      List.forall_mem_cons] at hsettled
    simp only [declareAll_cons, bind_apply, pure_apply]
    refine (echoes_declare h l.anchor l.name l.init names
      (hsettled.1.1 _ (by simp [Visit.mentioned]))).bind ?_
    exact (ih _ _ hsettled.2).bind (.pure _)

/-! ## Bodies -/

mutual

theorem echoes_expr (aims : Aims p site outer fun q spot => spot.expr.WellAimed q)
    (h : site.Calm p q) (scope : List Local) : (e : Expr) → (s : Resolution) →
    (∀ v ∈ e.visits, v.Settled p q site) →
    (∀ v ∈ (expr site (namesIn outer scope) e s).1.visits, v.Firm p q site) →
    Echoes p q (expr site (namesIn outer scope) e)
      (expr site (namesIn outer scope) (expr site (namesIn outer scope) e s).1) s
  | .literal head kind, s, _, _ => by
    simp only [expr]
    exact .pure _
  | .self head isSuper, s, _, _ => by
    simp only [expr]
    exact .pure _
  | .name head id qualifier target, s, hsettled, hfirm => by
    simp only [Expr.visits, List.forall_mem_cons] at hsettled
    simp only [expr, bind_apply, pure_apply, Expr.visits, List.forall_mem_cons] at hfirm ⊢
    refine (echoes_exprOption aims h scope qualifier s hsettled.2 hfirm.2).bind_yields
      (yields_exprOption aims scope qualifier)
      fun hqualifier => ?_
    obtain ⟨halike, haimed⟩ := hqualifier _ (.refl _)
    refine (echoes_nameTarget h (isAimed_of_spotsOption haimed) head.text _
      (fun hsimple => ?_) hfirm.1).bind (.pure _)
    refine steady_of_settled hsettled.1 ?_
    cases halike with
    | none => rfl
    | some _ => cases hsimple
  | .call head id qualifier args target, s, hsettled, hfirm => by
    simp only [Expr.visits, List.forall_mem_cons, List.forall_mem_append] at hsettled
    simp only [expr, bind_apply, pure_apply, Expr.visits, List.forall_mem_cons,
      List.forall_mem_append] at hfirm ⊢
    refine (echoes_exprOption aims h scope qualifier s hsettled.2.1 hfirm.2.1).bind_yields
      (yields_exprOption aims scope qualifier)
      fun hqualifier => ?_
    refine (echoes_exprs aims h scope args _ hsettled.2.2 hfirm.2.2).bind ?_
    obtain ⟨-, haimed⟩ := hqualifier _ (adds_exprs site (namesIn outer scope) args _).grows
    exact (echoes_callTarget h (isAimed_of_spotsOption haimed) (keepsMethod_of_firm hfirm.1)).bind
      (.pure _)
  | .create head type args target, s, hsettled, hfirm => by
    simp only [Expr.visits, List.forall_mem_cons] at hsettled
    simp only [expr, bind_apply, get_apply, pure_apply, Expr.visits,
      List.forall_mem_cons] at hfirm ⊢
    refine (echoes_qualifyUse h (hsettled.1 _ (by simp [Visit.mentioned]))).bind ?_
    exact (echoes_exprs aims h scope args _ hsettled.2 hfirm.2).bind
      (echoes_findConstructor? h _ _ _)
  | .paren head inner, s, hsettled, hfirm => by
    simp only [Expr.visits, List.forall_mem_cons] at hsettled
    simp only [expr, bind_apply, pure_apply, Expr.visits, List.forall_mem_cons] at hfirm ⊢
    exact (echoes_expr aims h scope inner s hsettled.2 hfirm.2).bind (.pure _)
  | .unary head op operand isPre, s, hsettled, hfirm => by
    simp only [Expr.visits, List.forall_mem_cons] at hsettled
    simp only [expr, bind_apply, pure_apply, Expr.visits, List.forall_mem_cons] at hfirm ⊢
    exact (echoes_expr aims h scope operand s hsettled.2 hfirm.2).bind (.pure _)
  | .binary head op left right, s, hsettled, hfirm => by
    simp only [Expr.visits, List.forall_mem_cons, List.forall_mem_append] at hsettled
    simp only [expr, bind_apply, pure_apply, Expr.visits, List.forall_mem_cons,
      List.forall_mem_append] at hfirm ⊢
    refine (echoes_expr aims h scope left s hsettled.2.1 hfirm.2.1).bind ?_
    exact (echoes_expr aims h scope right _ hsettled.2.2 hfirm.2.2).bind (.pure _)
  | .conditional head c t f, s, hsettled, hfirm => by
    simp only [Expr.visits, List.forall_mem_cons, List.forall_mem_append] at hsettled
    simp only [expr, bind_apply, pure_apply, Expr.visits, List.forall_mem_cons,
      List.forall_mem_append] at hfirm ⊢
    refine (echoes_expr aims h scope c s hsettled.2.1.1 hfirm.2.1.1).bind ?_
    refine (echoes_expr aims h scope t _ hsettled.2.1.2 hfirm.2.1.2).bind ?_
    exact (echoes_expr aims h scope f _ hsettled.2.2 hfirm.2.2).bind (.pure _)
  | .cast head type operand, s, hsettled, hfirm => by
    simp only [Expr.visits, List.forall_mem_cons] at hsettled
    simp only [expr, bind_apply, pure_apply, Expr.visits, List.forall_mem_cons] at hfirm ⊢
    refine (echoes_qualifyUse h (hsettled.1 _ (by simp [Visit.mentioned]))).bind ?_
    exact (echoes_expr aims h scope operand _ hsettled.2 hfirm.2).bind (.pure _)
  | .assign head op target value, s, hsettled, hfirm => by
    simp only [Expr.visits, List.forall_mem_cons, List.forall_mem_append] at hsettled
    simp only [expr, bind_apply, pure_apply, Expr.visits, List.forall_mem_cons,
      List.forall_mem_append] at hfirm ⊢
    refine (echoes_expr aims h scope target s hsettled.2.1 hfirm.2.1).bind ?_
    exact (echoes_expr aims h scope value _ hsettled.2.2 hfirm.2.2).bind (.pure _)
  | .index head array position, s, hsettled, hfirm => by
    simp only [Expr.visits, List.forall_mem_cons, List.forall_mem_append] at hsettled
    simp only [expr, bind_apply, pure_apply, Expr.visits, List.forall_mem_cons,
      List.forall_mem_append] at hfirm ⊢
    refine (echoes_expr aims h scope array s hsettled.2.1 hfirm.2.1).bind ?_
    exact (echoes_expr aims h scope position _ hsettled.2.2 hfirm.2.2).bind (.pure _)
  | .newArray head element sizes entries, s, hsettled, hfirm => by
    simp only [Expr.visits, List.forall_mem_cons, List.forall_mem_append] at hsettled
    simp only [expr, bind_apply, pure_apply, Expr.visits, List.forall_mem_cons,
      List.forall_mem_append] at hfirm ⊢
    refine (echoes_element h hsettled.1).bind ?_
    refine (echoes_exprs aims h scope sizes _ hsettled.2.1 hfirm.2.1).bind ?_
    exact (echoes_exprs aims h scope entries _ hsettled.2.2 hfirm.2.2).bind (.pure _)
  | .lambda head params body, s, hsettled, hfirm => by
    simp only [Expr.visits, List.forall_mem_cons, List.forall_mem_append] at hsettled
    simp only [expr_lambda, bind_apply, pure_apply, Expr.visits, List.forall_mem_cons,
      List.forall_mem_append] at hfirm ⊢
    refine (echoes_declareAll h params _ s hsettled.2.1).bind_yields
      (yields_declareAll outer site params scope)
      fun hparams => ?_
    rw [(hparams _ (.refl _)).1] at hfirm ⊢
    exact (echoes_stmt aims h _ body _ hsettled.2.2 hfirm.2.2).bind (.pure _)
  | .other head children, s, hsettled, hfirm => by
    simp only [Expr.visits, List.forall_mem_cons] at hsettled
    simp only [expr, bind_apply, pure_apply, Expr.visits, List.forall_mem_cons] at hfirm ⊢
    exact (echoes_exprs aims h scope children s hsettled.2 hfirm.2).bind (.pure _)
termination_by structural x => x

theorem echoes_exprs (aims : Aims p site outer fun q spot => spot.expr.WellAimed q)
    (h : site.Calm p q) (scope : List Local) : (es : List Expr) → (s : Resolution) →
    (∀ v ∈ Expr.visitsList es, v.Settled p q site) →
    (∀ v ∈ Expr.visitsList (exprs site (namesIn outer scope) es s).1, v.Firm p q site) →
    Echoes p q (exprs site (namesIn outer scope) es)
      (exprs site (namesIn outer scope) (exprs site (namesIn outer scope) es s).1) s
  | [], s, _, _ => by
    simp only [exprs]
    exact .pure _
  | e :: rest, s, hsettled, hfirm => by
    simp only [Expr.visitsList, List.forall_mem_append] at hsettled
    simp only [exprs, bind_apply, pure_apply, Expr.visitsList, List.forall_mem_append] at hfirm ⊢
    refine (echoes_expr aims h scope e s hsettled.1 hfirm.1).bind ?_
    exact (echoes_exprs aims h scope rest _ hsettled.2 hfirm.2).bind (.pure _)
termination_by structural x => x

theorem echoes_exprOption (aims : Aims p site outer fun q spot => spot.expr.WellAimed q)
    (h : site.Calm p q) (scope : List Local) : (e : Option Expr) → (s : Resolution) →
    (∀ v ∈ Expr.visitsOption e, v.Settled p q site) →
    (∀ v ∈ Expr.visitsOption (exprOption site (namesIn outer scope) e s).1, v.Firm p q site) →
    Echoes p q (exprOption site (namesIn outer scope) e)
      (exprOption site (namesIn outer scope) (exprOption site (namesIn outer scope) e s).1) s
  | none, s, _, _ => by
    simp only [exprOption]
    exact .pure _
  | some e, s, hsettled, hfirm => by
    simp only [Expr.visitsOption] at hsettled
    simp only [exprOption, bind_apply, pure_apply, Expr.visitsOption] at hfirm ⊢
    exact (echoes_expr aims h scope e s hsettled hfirm).bind (.pure _)
termination_by structural x => x

theorem echoes_stmt (aims : Aims p site outer fun q spot => spot.expr.WellAimed q)
    (h : site.Calm p q) (scope : List Local) : (b : Stmt) → (s : Resolution) →
    (∀ v ∈ b.visits, v.Settled p q site) →
    (∀ v ∈ (stmt site (namesIn outer scope) b s).1.1.visits, v.Firm p q site) →
    Echoes p q (stmt site (namesIn outer scope) b)
      (stmt site (namesIn outer scope) (stmt site (namesIn outer scope) b s).1.1) s
  | .declare head locals, s, hsettled, hfirm => by
    simp only [Stmt.visits, List.forall_mem_cons] at hsettled
    simp only [stmt_declare, bind_apply, pure_apply, Stmt.visits, List.forall_mem_cons] at hfirm ⊢
    exact (echoes_declared aims h scope locals s hsettled.2 hfirm.2).bind (.pure _)
  | .eval head e, s, hsettled, hfirm => by
    simp only [Stmt.visits, List.forall_mem_cons] at hsettled
    simp only [stmt, bind_apply, pure_apply, Stmt.visits, List.forall_mem_cons] at hfirm ⊢
    exact (echoes_expr aims h scope e s hsettled.2 hfirm.2).bind (.pure _)
  | .raise head e, s, hsettled, hfirm => by
    simp only [Stmt.visits, List.forall_mem_cons] at hsettled
    simp only [stmt, bind_apply, pure_apply, Stmt.visits, List.forall_mem_cons] at hfirm ⊢
    exact (echoes_expr aims h scope e s hsettled.2 hfirm.2).bind (.pure _)
  | .block head inner, s, hsettled, hfirm => by
    simp only [Stmt.visits, List.forall_mem_cons] at hsettled
    simp only [stmt_block, bind_apply, pure_apply, Stmt.visits, List.forall_mem_cons] at hfirm ⊢
    exact (echoes_stmts aims h scope inner s hsettled.2 hfirm.2).bind (.pure _)
  | .branch head c t f, s, hsettled, hfirm => by
    simp only [Stmt.visits, List.forall_mem_cons, List.forall_mem_append] at hsettled
    simp only [stmt_branch, bind_apply, pure_apply, Stmt.visits, List.forall_mem_cons,
      List.forall_mem_append] at hfirm ⊢
    refine (echoes_expr aims h scope c s hsettled.2.1.1 hfirm.2.1.1).bind ?_
    refine (echoes_stmt aims h scope t _ hsettled.2.1.2 hfirm.2.1.2).bind ?_
    exact (echoes_stmtOption aims h scope f _ hsettled.2.2 hfirm.2.2).bind (.pure _)
  | .loop head init c update body, s, hsettled, hfirm => by
    simp only [Stmt.visits, List.forall_mem_cons, List.forall_mem_append] at hsettled
    simp only [stmt_loop, bind_apply, pure_apply, Stmt.visits, List.forall_mem_cons,
      List.forall_mem_append] at hfirm ⊢
    refine (echoes_stmts aims h scope init s hsettled.2.1.1.1 hfirm.2.1.1.1).bind_yields
      (yields_stmts aims scope init)
      fun hinit => ?_
    rw [(hinit _ (.refl _)).2.2] at hfirm ⊢
    refine (echoes_exprOption aims h _ c _ hsettled.2.1.1.2 hfirm.2.1.1.2).bind ?_
    refine (echoes_exprs aims h _ update _ hsettled.2.1.2 hfirm.2.1.2).bind ?_
    exact (echoes_stmt aims h _ body _ hsettled.2.2 hfirm.2.2).bind (.pure _)
  | .forEach head (.mk itemHead name type init) iterable body, s, hsettled, hfirm => by
    simp only [Stmt.visits, Local.visits_eq, List.forall_mem_cons,
      List.forall_mem_append] at hsettled
    simp only [stmt_forEach, bind_apply, pure_apply, Stmt.visits, Local.visits_eq,
      List.forall_mem_cons, List.forall_mem_append] at hfirm ⊢
    refine (echoes_expr aims h scope iterable s hsettled.2.1.2 hfirm.2.1.2).bind_yields
      (yields_expr aims scope iterable)
      fun hiterable => ?_
    have haimed := isAimed_of_spots (hiterable _ (.refl _)).2
    have hsteady := hsettled.2.1.1.1 (Text.firstSegment type.type.name)
      (by simp [Visit.mentioned, Local.type])
    refine (echoes_declareInferred h haimed _ itemHead name init _ hsteady fun _ =>
      hfirm.2.1.1.1).bind ?_
    exact (echoes_stmt aims h (_ :: scope) body _ hsettled.2.2 hfirm.2.2).bind (.pure _)
  | .ret head value, s, hsettled, hfirm => by
    simp only [Stmt.visits, List.forall_mem_cons] at hsettled
    simp only [stmt, bind_apply, pure_apply, Stmt.visits, List.forall_mem_cons] at hfirm ⊢
    exact (echoes_exprOption aims h scope value s hsettled.2 hfirm.2).bind (.pure _)
  | .attempt head resources body clauses last, s, hsettled, hfirm => by
    simp only [Stmt.visits, List.forall_mem_cons, List.forall_mem_append] at hsettled
    simp only [stmt_attempt, bind_apply, pure_apply, Stmt.visits, List.forall_mem_cons,
      List.forall_mem_append]
      at hfirm ⊢
    refine (echoes_stmts aims h scope resources s hsettled.2.1.1.1 hfirm.2.1.1.1).bind_yields
      (yields_stmts aims scope resources)
      fun hresources => ?_
    rw [(hresources _ (.refl _)).2.2] at hfirm ⊢
    refine (echoes_stmt aims h _ body _ hsettled.2.1.1.2 hfirm.2.1.1.2).bind ?_
    refine (echoes_handlers aims h scope clauses _ hsettled.2.1.2 hfirm.2.1.2).bind ?_
    exact (echoes_stmtOption aims h scope last _ hsettled.2.2 hfirm.2.2).bind (.pure _)
  | .assertion head c message, s, hsettled, hfirm => by
    simp only [Stmt.visits, List.forall_mem_cons, List.forall_mem_append] at hsettled
    simp only [stmt, bind_apply, pure_apply, Stmt.visits, List.forall_mem_cons,
      List.forall_mem_append] at hfirm ⊢
    refine (echoes_expr aims h scope c s hsettled.2.1 hfirm.2.1).bind ?_
    exact (echoes_exprOption aims h scope message _ hsettled.2.2 hfirm.2.2).bind (.pure _)
  | .localClass head id, s, _, _ => by
    simp only [stmt]
    exact .pure _
  | .other head inner values, s, hsettled, hfirm => by
    simp only [Stmt.visits, List.forall_mem_cons, List.forall_mem_append] at hsettled
    simp only [stmt_other, bind_apply, pure_apply, Stmt.visits, List.forall_mem_cons,
      List.forall_mem_append] at hfirm ⊢
    refine (echoes_exprs aims h scope values s hsettled.2.1 hfirm.2.1).bind ?_
    exact (echoes_stmts aims h scope inner _ hsettled.2.2 hfirm.2.2).bind (.pure _)
termination_by structural x => x

theorem echoes_stmts (aims : Aims p site outer fun q spot => spot.expr.WellAimed q)
    (h : site.Calm p q) (scope : List Local) : (bs : List Stmt) → (s : Resolution) →
    (∀ v ∈ Stmt.visitsList bs, v.Settled p q site) →
    (∀ v ∈ Stmt.visitsList (stmts site (namesIn outer scope) bs s).1.1, v.Firm p q site) →
    Echoes p q (stmts site (namesIn outer scope) bs)
      (stmts site (namesIn outer scope) (stmts site (namesIn outer scope) bs s).1.1) s
  | [], s, _, _ => by
    simp only [stmts]
    exact .pure _
  | b :: rest, s, hsettled, hfirm => by
    simp only [Stmt.visitsList, List.forall_mem_append] at hsettled
    simp only [stmts_cons, bind_apply, pure_apply, Stmt.visitsList,
      List.forall_mem_append] at hfirm ⊢
    refine (echoes_stmt aims h scope b s hsettled.1 hfirm.1).bind_yields
      (yields_stmt aims scope b) fun hb => ?_
    rw [(hb _ (.refl _)).2.2] at hfirm ⊢
    exact (echoes_stmts aims h _ rest _ hsettled.2 hfirm.2).bind (.pure _)
termination_by structural x => x

theorem echoes_stmtOption (aims : Aims p site outer fun q spot => spot.expr.WellAimed q)
    (h : site.Calm p q) (scope : List Local) : (b : Option Stmt) → (s : Resolution) →
    (∀ v ∈ Stmt.visitsOption b, v.Settled p q site) →
    (∀ v ∈ Stmt.visitsOption (stmtOption site (namesIn outer scope) b s).1.1, v.Firm p q site) →
    Echoes p q (stmtOption site (namesIn outer scope) b)
      (stmtOption site (namesIn outer scope) (stmtOption site (namesIn outer scope) b s).1.1) s
  | none, s, _, _ => by
    simp only [stmtOption]
    exact .pure _
  | some b, s, hsettled, hfirm => by
    simp only [Stmt.visitsOption] at hsettled
    simp only [stmtOption_some, bind_apply, pure_apply, Stmt.visitsOption] at hfirm ⊢
    exact (echoes_stmt aims h scope b s hsettled hfirm).bind (.pure _)
termination_by structural x => x

theorem echoes_declared (aims : Aims p site outer fun q spot => spot.expr.WellAimed q)
    (h : site.Calm p q) (scope : List Local) : (locals : List Local) → (s : Resolution) →
    (∀ v ∈ Local.visitsList locals, v.Settled p q site) →
    (∀ v ∈ Local.visitsList (declared site (namesIn outer scope) locals s).1.1, v.Firm p q site) →
    Echoes p q (declared site (namesIn outer scope) locals)
      (declared site (namesIn outer scope) (declared site (namesIn outer scope) locals s).1.1) s
  | [], s, _, _ => by
    simp only [declared]
    exact .pure _
  | .mk head name type init :: rest, s, hsettled, hfirm => by
    simp only [Local.visitsList, Local.visits_eq, List.forall_mem_cons,
      List.forall_mem_append] at hsettled
    simp only [declared_cons, bind_apply, pure_apply, Local.visitsList, Local.visits_eq,
      List.forall_mem_cons, List.forall_mem_append] at hfirm ⊢
    refine (echoes_exprOption aims h scope init s hsettled.1.2 hfirm.1.2).bind_yields
      (yields_exprOption aims scope init)
      fun hinit => ?_
    have haimed := isAimed_of_spotsOption (hinit _ (.refl _)).2
    have hsteady := hsettled.1.1 (Text.firstSegment type.type.name)
      (by simp [Visit.mentioned, Local.type])
    refine (echoes_declareInferred h haimed _ head name _ _ hsteady fun _ => hfirm.1.1).bind ?_
    exact (echoes_declared aims h (_ :: scope) rest _ hsettled.2 hfirm.2).bind (.pure _)
termination_by structural x => x

theorem echoes_handlers (aims : Aims p site outer fun q spot => spot.expr.WellAimed q)
    (h : site.Calm p q) (scope : List Local) : (clauses : List Handler) → (s : Resolution) →
    (∀ v ∈ Handler.visitsList clauses, v.Settled p q site) →
    (∀ v ∈ Handler.visitsList (handlers site (namesIn outer scope) clauses s).1, v.Firm p q site) →
    Echoes p q (handlers site (namesIn outer scope) clauses)
      (handlers site (namesIn outer scope) (handlers site (namesIn outer scope) clauses s).1) s
  | [], s, _, _ => by
    simp only [handlers]
    exact .pure _
  | .mk (.mk head name type init) body :: rest, s, hsettled, hfirm => by
    simp only [Handler.visitsList, Handler.visits, Local.visits_eq, List.forall_mem_cons,
      List.forall_mem_append]
      at hsettled
    simp only [handlers_cons, bind_apply, pure_apply, Handler.visitsList, Handler.visits,
      Local.visits_eq, List.forall_mem_cons, List.forall_mem_append] at hfirm ⊢
    have hsteady := hsettled.1.1.1 (Text.firstSegment type.type.name)
      (by simp [Visit.mentioned, Local.type])
    refine (echoes_declare h head name init _ hsteady).bind ?_
    refine (echoes_stmt aims h (_ :: scope) body _ hsettled.1.2 hfirm.1.2).bind ?_
    exact (echoes_handlers aims h scope rest _ hsettled.2 hfirm.2).bind (.pure _)
termination_by structural x => x

end

end Resolve

end KernelLint
