import KernelLint.Proofs.Program.VarUse
import KernelLint.Proofs.Resolve.Agreement

/-!
# Inferred types

The traversal of a body qualifies the types that are fixed there, and a variable of which the type
is left out gets the type that is inferred from the tables right before it is declared (`Turns`). So
the word `var` stays where it was written for a parameter of a lambda or a handler, and elsewhere it
can only come back from something of that type. One pass over the body carries both: what stands at
each stop, and that the tables stay free of the type `var` as long as no type is fixed as `var`
(`Turning`).
-/

namespace KernelLint

/-! ## States -/

namespace Resolution

/-- The second state is reached from the first one by additions to its program and to its table. -/
structure Reaches (s t : Resolution) : Prop where
  adds : s.program.Adds t.program
  entries : s.localTypes <:+ t.localTypes

variable {s t u : Resolution}

theorem Reaches.refl (s : Resolution) : s.Reaches s := ⟨.refl _, List.suffix_rfl⟩

theorem Reaches.trans (h : s.Reaches t) (h' : t.Reaches u) :
    s.Reaches u := ⟨h.adds.trans h'.adds, h.entries.trans h'.entries⟩

theorem Reaches.leads (h : s.Reaches t) : s.Leads t := ⟨h.adds.resolves.grows, h.entries⟩

theorem Reaches.grounded (h : s.Reaches t) (hs : s.program.Grounded) :
    t.program.Grounded := hs.resolves h.adds.resolves

/-- The variable gets its type in the table. -/
def declaring (s : Resolution) (l : Local) :
    Resolution := { s with localTypes := (l.node, l.type.type) :: s.localTypes }

theorem reaches_declaring (s : Resolution) (l : Local) :
    s.Reaches (s.declaring l) := ⟨.refl _, List.suffix_cons _ _⟩

end Resolution

namespace Resolve

variable {site : Site} {start s t u : Resolution} {names : Names}

theorem Advances.reaches {α : Type} {x : Resolve α} (hx : Advances x) (s : Resolution) :
    s.Reaches (x s).2 :=
  ⟨hx.adds s, by simp only [hx.localTypes, List.suffix_rfl]⟩

/-! ## Stops -/

/-- The type is qualified in the program of some state on the way. -/
def Qualifies (site : Site) (start u : Resolution) (type type' : TypeUse) : Prop :=
  ∃ r : Resolution, start.Reaches r ∧ r.Reaches u ∧ type' = r.program.qualifyUse type site

/-- The variable has the type that is written for it, or the one that is inferred right before it is
declared. -/
def Infers (site : Site) (start u : Resolution)
    (x x' : Local × ((Expr → Option ErasedType) → Option ErasedType)) : Prop :=
  x'.1.node = x.1.node ∧ ∃ r : Resolution, start.Reaches r ∧ (r.declaring x'.1).Reaches u ∧
    x'.1.type = r.program.qualifyUse (inferType x.1.type (x'.2 (r.typeOf? site.owner))) site

/-- What becomes of the types at a stop between two states. -/
structure Turns (site : Site) (start u : Resolution) (v v' : Visit) : Prop where
  fixed : List.Forall₂ (Qualifies site start u) v.fixedTypes v'.fixedTypes
  inferred : List.Forall₂ (Infers site start u) v.inferring v'.inferring

theorem Qualifies.later {type type' : TypeUse} (h : Qualifies site start t type type')
    (hlater : t.Reaches u) :
    Qualifies site start u type type' := by
  obtain ⟨r, hstart, hr, htype⟩ := h
  exact ⟨r, hstart, hr.trans hlater, htype⟩

theorem Infers.later {x x' : Local × ((Expr → Option ErasedType) → Option ErasedType)}
    (h : Infers site start t x x') (hlater : t.Reaches u) : Infers site start u x x' := by
  obtain ⟨hnode, r, hstart, hr, htype⟩ := h
  exact ⟨hnode, r, hstart, hr.trans hlater, htype⟩

theorem Turns.later {v v' : Visit} (h : Turns site start t v v') (hlater : t.Reaches u) :
    Turns site start u v v' :=
  ⟨h.fixed.imp fun _ _ htype => htype.later hlater, h.inferred.imp fun _ _ hx => hx.later hlater⟩

theorem Turns.fixesNoVar {v v' : Visit} (h : Turns site start u v v')
    (hstart : start.program.Grounded) (hv : v.FixesNoVar) : v'.FixesNoVar := by
  intro u' hu'
  obtain ⟨type, htype, r, hr, -, rfl⟩ := exists_of_forall₂ h.fixed hu'
  rw [Ne, Program.qualifyUse_eq_var_iff (hr.grounded hstart)]
  exact hv type htype

/-- From one state to a later one the first walk turns into the second one. The tables stay free of
the type `var` under a condition on what is fixed on the way. -/
structure TurningIf (fixesNoVar : Prop) (site : Site) (start s u : Resolution)
    (visits visits' : List Visit) : Prop where
  reaches : s.Reaches u
  turned : List.Forall₂ (Turns site start u) visits visits'
  infers : start.program.Grounded → start.Reaches s → fixesNoVar → s.InfersVar → u.InfersVar

/-- The condition is that no type on the walk is fixed as `var`. -/
abbrev Turning (site : Site) (start s u : Resolution) (visits visits' : List Visit) : Prop :=
  TurningIf (∀ v ∈ visits, v.FixesNoVar) site start s u visits visits'

namespace TurningIf

variable {P Q : Prop} {visits visits' more more' : List Visit} {v v' : Visit}

theorem imp (h : TurningIf P site start s u visits visits') (hPQ : Q → P) :
    TurningIf Q site start s u visits visits' :=
  ⟨h.reaches, h.turned, fun hground hs hQ => h.infers hground hs (hPQ hQ)⟩

theorem append (h : TurningIf P site start s t visits visits')
    (h' : TurningIf Q site start t u more more') :
    TurningIf (P ∧ Q) site start s u (visits ++ more) (visits' ++ more') where
  reaches := h.reaches.trans h'.reaches
  turned := List.rel_append (h.turned.imp fun _ _ hv => hv.later h'.reaches) h'.turned
  infers := by
    intro hground hs hfixed hclean
    exact h'.infers hground (hs.trans h.reaches) hfixed.2 (h.infers hground hs hfixed.1 hclean)

theorem swap (h : TurningIf P site start s t more more')
    (h' : TurningIf Q site start t u visits visits') :
    TurningIf (P ∧ Q) site start s u (visits ++ more) (visits' ++ more') where
  reaches := h.reaches.trans h'.reaches
  turned := List.rel_append h'.turned (h.turned.imp fun _ _ hv => hv.later h'.reaches)
  infers := (h.append h').infers

theorem cons (h : TurningIf P site start s u visits visits') (hv : Turns site start u v v') :
    TurningIf P site start s u (v :: visits) (v' :: visits') :=
  ⟨h.reaches, .cons hv h.turned, h.infers⟩

end TurningIf

namespace Turning

variable {visits visits' more more' : List Visit} {v v' : Visit}

theorem nil : Turning site start s s [] [] := ⟨.refl s, .nil, fun _ _ _ h => h⟩

theorem advance (h : Turning site start s t visits visits') {α : Type} {x : Resolve α}
    (hx : Advances x) :
    Turning site start s (x t).2 visits visits' where
  reaches := h.reaches.trans (hx.reaches t)
  turned := h.turned.imp fun _ _ hv => hv.later (hx.reaches t)
  infers := by
    intro hground hs hfixed hclean
    have ht := h.infers hground hs hfixed hclean
    refine ⟨ht.program.adds (hx.adds t), ?_⟩
    rw [hx.localTypes]
    exact ht.locals

theorem append (h : Turning site start s t visits visits')
    (h' : Turning site start t u more more') :
    Turning site start s u (visits ++ more) (visits' ++ more') :=
  (TurningIf.append h h').imp List.forall_mem_append.mp

theorem cons (h : Turning site start s u visits visits') (hv : Turns site start u v v') :
    Turning site start s u (v :: visits) (v' :: visits') :=
  (TurningIf.cons h hv).imp fun hfixed => (List.forall_mem_cons.mp hfixed).2

theorem fixesNoVar (h : Turning site start s u visits visits') (hground : start.program.Grounded)
    (hfixed : ∀ v ∈ visits, v.FixesNoVar) : ∀ v' ∈ visits', v'.FixesNoVar := by
  intro v' hv'
  obtain ⟨v, hv, hturns⟩ := exists_of_forall₂ h.turned hv'
  exact hturns.fixesNoVar hground (hfixed v hv)

end Turning

theorem turns_bare {v v' : Visit} (hv : v.fixedTypes = [] ∧ v.inferring = [])
    (hv' : v'.fixedTypes = [] ∧ v'.inferring = []) :
    Turns site start u v v' := by
  constructor
  · rw [hv.1, hv'.1]
    exact .nil
  · rw [hv.2, hv'.2]
    exact .nil

/-! ## Variables -/

theorem declare_eq (head : Anchor) (name : String) (type : TypeUse) (init : Option Expr)
    (names : Names) (site : Site) (s : Resolution) : declare head name type init names site s =
      ((.mk head name (s.program.qualifyUse type site) init, (name, .localVar head.node) :: names),
        s.declaring (.mk head name (s.program.qualifyUse type site) init)) := rfl

theorem infersVar_declaring (hs : s.InfersVar) (hground : s.program.Grounded) {type : TypeUse}
    (htype : type.type.name ≠ "var") (head : Anchor) (name : String) (init : Option Expr) :
    (s.declaring (.mk head name (s.program.qualifyUse type site) init)).InfersVar := by
  refine ⟨hs.program, List.forall_mem_cons.mpr ⟨?_, hs.locals⟩⟩
  change (s.program.qualifyUse type site).type.name ≠ "var"
  rw [Ne, Program.qualifyUse_eq_var_iff hground]
  exact htype

theorem inferType_eq_var_iff (type : TypeUse) (inferred : Option ErasedType) :
    (inferType type inferred).type.name = "var" ↔
      type.type.name = "var" ∧ ∃ t ∈ inferred, t.name = "var" := by
  by_cases hvar : type.type.name = "var"
  · rw [inferType_of_var hvar]
    cases inferred with
    | none =>
      have hunknown : ErasedType.unknown.name ≠ "var" := by decide
      simp [hunknown]
    | some t => simp [hvar]
  · rw [inferType_of_ne hvar]
    simp [hvar]

theorem turning_declare (names : Names) (hs : start.Reaches s) {l : Local}
    (hbare : l.init.isNone = true) :
    TurningIf (l.type.type.name ≠ "var") site start s
      (declare l.anchor l.name l.type l.init names site s).2 l.visits
        (declare l.anchor l.name l.type l.init names site s).1.1.visits ∧
      Qualifies site start (declare l.anchor l.name l.type l.init names site s).2 l.type
        (declare l.anchor l.name l.type l.init names site s).1.1.type := by
  rw [visits_of_bare hbare, visits_of_bare
    (l := (declare l.anchor l.name l.type l.init names site s).1.1) hbare, declare_eq]
  refine ⟨⟨s.reaches_declaring _, .cons (turns_bare ⟨rfl, rfl⟩ ⟨rfl, rfl⟩) .nil, ?_⟩, s, hs,
    s.reaches_declaring _, rfl⟩
  intro hground hreaches hvar hclean
  exact infersVar_declaring hclean (hreaches.grounded hground) hvar ..

theorem turning_declareAll (site : Site) (locals : List Local) (names : Names) (s : Resolution)
    (hs : start.Reaches s) (hbare : locals.all (·.init.isNone) = true) :
    TurningIf (∀ l ∈ locals, l.type.type.name ≠ "var") site start s
      (declareAll site locals names s).2
        (Local.visitsList locals) (Local.visitsList (declareAll site locals names s).1.1) ∧
      List.Forall₂ (Qualifies site start (declareAll site locals names s).2) (locals.map Local.type)
        ((declareAll site locals names s).1.1.map Local.type) := by
  induction locals generalizing names s with
  | nil => exact ⟨Turning.nil.imp fun _ => List.forall_mem_nil _, .nil⟩
  | cons l rest ih =>
    rw [List.all_cons, Bool.and_eq_true] at hbare
    simp only [declareAll_cons, bind_apply, pure_apply, Local.visitsList, List.map_cons]
    obtain ⟨hl, htype⟩ := turning_declare names hs hbare.1
    obtain ⟨hrest, htypes⟩ := ih _ _ (hs.trans hl.reaches) hbare.2
    exact ⟨(hl.append hrest).imp List.forall_mem_cons.mp, .cons (htype.later hrest.reaches) htypes⟩

theorem turning_declareInferred (names : Names) (hs : start.Reaches t) (l : Local)
    (source : Option Expr) (view : Option ErasedType → Option ErasedType)
    (init : Option Expr) {P : Prop} (hsource : start.program.Grounded → P → t.InfersVar →
      ∀ type, view (source.bind (t.typeOf? site.owner)) = some type → type.name ≠ "var") :
    let declared := declareInferred site source view l.anchor l.name l.type init names t
    TurningIf P site start t declared.2 [.localVar l] [.localVar declared.1.1] ∧
      ∀ infer infer', infer' (t.typeOf? site.owner) = view (source.bind (t.typeOf? site.owner)) →
        Infers site start declared.2 (l, infer) (declared.1.1, infer') := by
  intro declared
  let type := inferType l.type (view (source.bind (t.typeOf? site.owner)))
  have hdeclared : declared = ((.mk l.anchor l.name (t.program.qualifyUse type site) init,
      (l.name, .localVar l.node) :: names),
        t.declaring (.mk l.anchor l.name (t.program.qualifyUse type site) init)) := rfl
  rw [hdeclared]
  refine ⟨⟨t.reaches_declaring _, .cons (turns_bare ⟨rfl, rfl⟩ ⟨rfl, rfl⟩) .nil, ?_⟩,
    fun infer infer' hinfer => ?_⟩
  · intro hground hreaches hP hclean
    refine infersVar_declaring hclean (hreaches.grounded hground) (fun hvar => ?_) ..
    obtain ⟨-, found, hfound, hname⟩ := (inferType_eq_var_iff _ _).mp hvar
    exact hsource hground hP hclean found hfound hname
  · refine ⟨rfl, t, hs, .refl _, ?_⟩
    change t.program.qualifyUse type site =
      t.program.qualifyUse (inferType l.type (infer' (t.typeOf? site.owner))) site
    rw [hinfer]

/-- The variables of a declaration, as they are inferred. -/
def inferredFromInit (l : Local) : Local × ((Expr → Option ErasedType) → Option ErasedType) :=
  (l, fun typing => l.init.bind typing)

/-! ## Bodies -/

mutual

theorem turning_expr (names : Names) : (e : Expr) → (s : Resolution) → start.Reaches s →
    (∀ v ∈ e.visits, v.isBare = true) →
    Turning site start s (expr site names e s).2 e.visits (expr site names e s).1.visits
  | .literal head kind, s, _, _ => by
    simp only [expr, pure_apply]
    exact Turning.nil.cons ⟨.nil, .nil⟩
  | .self head isSuper, s, _, _ => by
    simp only [expr, pure_apply]
    exact Turning.nil.cons ⟨.nil, .nil⟩
  | .name head id qualifier target, s, hs, hbare => by
    simp only [expr, bind_apply, pure_apply, Expr.visits, List.forall_mem_cons] at hbare ⊢
    exact ((turning_exprOption names qualifier s hs hbare.2).advance (advances_nameTarget ..)).cons
      ⟨.nil, .nil⟩
  | .call head id qualifier args target, s, hs, hbare => by
    simp only [expr, bind_apply, pure_apply, Expr.visits, List.forall_mem_cons,
      List.forall_mem_append] at hbare ⊢
    have hqualifier := turning_exprOption names qualifier s hs hbare.2.1
    have hargs :=
      hqualifier.append (turning_exprs names args _ (hs.trans hqualifier.reaches) hbare.2.2)
    exact (hargs.advance (advances_callTarget ..)).cons ⟨.nil, .nil⟩
  | .create head type args target, s, hs, hbare => by
    simp only [expr, bind_apply, get_apply, pure_apply, Expr.visits,
      List.forall_mem_cons] at hbare ⊢
    have hargs := turning_exprs names args s hs hbare.2
    exact hargs.cons ⟨.cons ⟨s, hs, hargs.reaches, rfl⟩ .nil, .nil⟩
  | .paren head inner, s, hs, hbare => by
    simp only [expr, bind_apply, pure_apply, Expr.visits, List.forall_mem_cons] at hbare ⊢
    exact (turning_expr names inner s hs hbare.2).cons ⟨.nil, .nil⟩
  | .unary head op operand isPre, s, hs, hbare => by
    simp only [expr, bind_apply, pure_apply, Expr.visits, List.forall_mem_cons] at hbare ⊢
    exact (turning_expr names operand s hs hbare.2).cons ⟨.nil, .nil⟩
  | .binary head op left right, s, hs, hbare => by
    simp only [expr, bind_apply, pure_apply, Expr.visits, List.forall_mem_cons,
      List.forall_mem_append] at hbare ⊢
    have hleft := turning_expr names left s hs hbare.2.1
    exact (hleft.append (turning_expr names right _ (hs.trans hleft.reaches) hbare.2.2)).cons
      ⟨.nil, .nil⟩
  | .conditional head c t f, s, hs, hbare => by
    simp only [expr, bind_apply, pure_apply, Expr.visits, List.forall_mem_cons,
      List.forall_mem_append] at hbare ⊢
    have hc := turning_expr names c s hs hbare.2.1.1
    have ht := hc.append (turning_expr names t _ (hs.trans hc.reaches) hbare.2.1.2)
    exact (ht.append (turning_expr names f _ (hs.trans ht.reaches) hbare.2.2)).cons ⟨.nil, .nil⟩
  | .cast head type operand, s, hs, hbare => by
    simp only [expr, bind_apply, pure_apply, Expr.visits, List.forall_mem_cons] at hbare ⊢
    have hoperand := turning_expr names operand s hs hbare.2
    exact hoperand.cons ⟨.cons ⟨s, hs, hoperand.reaches, rfl⟩ .nil, .nil⟩
  | .assign head op target value, s, hs, hbare => by
    simp only [expr, bind_apply, pure_apply, Expr.visits, List.forall_mem_cons,
      List.forall_mem_append] at hbare ⊢
    have htarget := turning_expr names target s hs hbare.2.1
    exact (htarget.append (turning_expr names value _ (hs.trans htarget.reaches) hbare.2.2)).cons
      ⟨.nil, .nil⟩
  | .index head array position, s, hs, hbare => by
    simp only [expr, bind_apply, pure_apply, Expr.visits, List.forall_mem_cons,
      List.forall_mem_append] at hbare ⊢
    have harray := turning_expr names array s hs hbare.2.1
    exact (harray.append (turning_expr names position _ (hs.trans harray.reaches) hbare.2.2)).cons
      ⟨.nil, .nil⟩
  | .newArray head element sizes entries, s, hs, hbare => by
    simp only [expr, bind_apply, pure_apply, Expr.visits, List.forall_mem_cons,
      List.forall_mem_append] at hbare ⊢
    have helement : Turning site start s (element.mapM (qualifyUse · site) s).2 [] [] :=
      Turning.nil.advance (advances_element element site)
    have hsizes :=
      helement.append (turning_exprs names sizes _ (hs.trans helement.reaches) hbare.2.1)
    have hentries :=
      hsizes.append (turning_exprs names entries _ (hs.trans hsizes.reaches) hbare.2.2)
    refine hentries.cons ⟨?_, .nil⟩
    cases element with
    | none => exact .nil
    | some type => exact .cons ⟨s, hs, hentries.reaches, rfl⟩ .nil
  | .lambda head params body, s, hs, hbare => by
    simp only [expr_lambda, bind_apply, pure_apply, Expr.visits, List.forall_mem_cons,
      List.forall_mem_append] at hbare ⊢
    obtain ⟨hparams, htypes⟩ := turning_declareAll site params names s hs hbare.1
    have hbody := turning_stmt (declareAll site params names s).1.2 body _
      (hs.trans hparams.reaches) hbare.2.2
    refine ((hparams.append hbody).cons ⟨htypes.imp fun _ _ htype => htype.later hbody.reaches,
      .nil⟩).imp fun hfixed => ?_
    simp only [List.forall_mem_cons, List.forall_mem_append] at hfixed
    exact ⟨fun l hl => hfixed.1 l.type (List.mem_map_of_mem hl), hfixed.2.2⟩
  | .other head children, s, hs, hbare => by
    simp only [expr, bind_apply, pure_apply, Expr.visits, List.forall_mem_cons] at hbare ⊢
    exact (turning_exprs names children s hs hbare.2).cons ⟨.nil, .nil⟩

theorem turning_exprs (names : Names) : (es : List Expr) → (s : Resolution) → start.Reaches s →
    (∀ v ∈ Expr.visitsList es, v.isBare = true) →
    Turning site start s (exprs site names es s).2 (Expr.visitsList es)
      (Expr.visitsList (exprs site names es s).1)
  | [], s, _, _ => by
    simp only [exprs, pure_apply]
    exact .nil
  | e :: rest, s, hs, hbare => by
    simp only [exprs, bind_apply, pure_apply, Expr.visitsList, List.forall_mem_append] at hbare ⊢
    have he := turning_expr names e s hs hbare.1
    exact he.append (turning_exprs names rest _ (hs.trans he.reaches) hbare.2)

theorem turning_exprOption (names : Names) :
    (e : Option Expr) → (s : Resolution) → start.Reaches s →
    (∀ v ∈ Expr.visitsOption e, v.isBare = true) →
    Turning site start s (exprOption site names e s).2 (Expr.visitsOption e)
      (Expr.visitsOption (exprOption site names e s).1)
  | none, s, _, _ => by
    simp only [exprOption, pure_apply]
    exact .nil
  | some e, s, hs, hbare => by
    simp only [exprOption, bind_apply, pure_apply, Expr.visitsOption] at hbare ⊢
    exact turning_expr names e s hs hbare

/-- **The types in a body.** -/
theorem turning_stmt (names : Names) : (b : Stmt) → (s : Resolution) → start.Reaches s →
    (∀ v ∈ b.visits, v.isBare = true) →
    Turning site start s (stmt site names b s).2 b.visits (stmt site names b s).1.1.visits
  | .declare head locals, s, hs, hbare => by
    simp only [stmt_declare, bind_apply, pure_apply, Stmt.visits, List.forall_mem_cons] at hbare ⊢
    obtain ⟨hlocals, hinferred⟩ := turning_declared names locals s hs hbare.2
    exact hlocals.cons ⟨.nil, hinferred⟩
  | .eval head e, s, hs, hbare => by
    simp only [stmt, bind_apply, pure_apply, Stmt.visits, List.forall_mem_cons] at hbare ⊢
    exact (turning_expr names e s hs hbare.2).cons ⟨.nil, .nil⟩
  | .raise head e, s, hs, hbare => by
    simp only [stmt, bind_apply, pure_apply, Stmt.visits, List.forall_mem_cons] at hbare ⊢
    exact (turning_expr names e s hs hbare.2).cons ⟨.nil, .nil⟩
  | .block head inner, s, hs, hbare => by
    simp only [stmt_block, bind_apply, pure_apply, Stmt.visits, List.forall_mem_cons] at hbare ⊢
    exact (turning_stmts names inner s hs hbare.2).cons ⟨.nil, .nil⟩
  | .branch head c t f, s, hs, hbare => by
    simp only [stmt_branch, bind_apply, pure_apply, Stmt.visits, List.forall_mem_cons,
      List.forall_mem_append] at hbare ⊢
    have hc := turning_expr names c s hs hbare.2.1.1
    have ht := hc.append (turning_stmt names t _ (hs.trans hc.reaches) hbare.2.1.2)
    exact (ht.append (turning_stmtOption names f _ (hs.trans ht.reaches) hbare.2.2)).cons
      ⟨.nil, .nil⟩
  | .loop head init c update body, s, hs, hbare => by
    simp only [stmt_loop, bind_apply, pure_apply, Stmt.visits, List.forall_mem_cons,
      List.forall_mem_append] at hbare ⊢
    have hinit := turning_stmts names init s hs hbare.2.1.1.1
    let inner := (stmts site names init s).1.2
    have hc := hinit.append (turning_exprOption inner c _ (hs.trans hinit.reaches) hbare.2.1.1.2)
    have hupdate := hc.append (turning_exprs inner update _ (hs.trans hc.reaches) hbare.2.1.2)
    exact (hupdate.append (turning_stmt inner body _ (hs.trans hupdate.reaches) hbare.2.2)).cons
      ⟨.nil, .nil⟩
  | .forEach head item iterable body, s, hs, hbare => by
    simp only [stmt_forEach, bind_apply, pure_apply, Stmt.visits, List.forall_mem_cons,
      List.forall_mem_append] at hbare ⊢
    have hiterable := turning_expr names iterable s hs hbare.2.1.2
    obtain ⟨hitem, hinferred⟩ := turning_declareInferred names (hs.trans hiterable.reaches) item
      (some (expr site names iterable s).1) (·.bind ErasedType.entry?) item.init
        (P := ∀ v ∈ iterable.visits, v.FixesNoVar)
      fun hground hfixed hclean type htype => by
        obtain ⟨array, harray, hentry⟩ := Option.bind_eq_some_iff.mp htype
        have hname := hclean.typeOf? site.owner _ (hiterable.fixesNoVar hground hfixed) array harray
        exact Resolution.InfersVar.entry?_ne_var hname hentry
    have hvisits : ∀ inferred,
      Local.visits (declareInferred site inferred (·.bind ErasedType.entry?) item.anchor item.name
        item.type item.init names (expr site names iterable s).2).1.1 = [.localVar _] :=
      fun _ => visits_of_bare hbare.1
    rw [visits_of_bare hbare.1, hvisits]
    generalize declareInferred site _ _ _ _ _ _ _ _ = declared at hitem hinferred ⊢
    -- The walk meets the variable first, though the iterable is resolved before it.
    have hparts := TurningIf.swap hiterable hitem
    have hbody := turning_stmt declared.1.2 body _ (hs.trans hparts.reaches) hbare.2.2
    have hturns : Turns site start (stmt site declared.1.2 body declared.2).2
      (.stmt (.forEach head item iterable body))
        (.stmt (.forEach head declared.1.1 (expr site names iterable s).1
          (stmt site declared.1.2 body declared.2).1.1)) :=
      ⟨.nil, .cons ((hinferred _ _ rfl).later hbody.reaches) .nil⟩
    refine ((hparts.append hbody).cons hturns).imp fun hfixed => ?_
    simp only [List.forall_mem_cons, List.forall_mem_append] at hfixed
    exact ⟨⟨hfixed.2.1.2, hfixed.2.1.2⟩, hfixed.2.2⟩
  | .ret head value, s, hs, hbare => by
    simp only [stmt, bind_apply, pure_apply, Stmt.visits, List.forall_mem_cons] at hbare ⊢
    exact (turning_exprOption names value s hs hbare.2).cons ⟨.nil, .nil⟩
  | .attempt head resources body clauses last, s, hs, hbare => by
    simp only [stmt_attempt, bind_apply, pure_apply, Stmt.visits, List.forall_mem_cons,
      List.forall_mem_append] at hbare ⊢
    have hresources := turning_stmts names resources s hs hbare.2.1.1.1
    have hbody := hresources.append
      (turning_stmt (stmts site names resources s).1.2 body _
        (hs.trans hresources.reaches) hbare.2.1.1.2)
    obtain ⟨hclauses, htypes⟩ :=
      turning_handlers names clauses _ (hs.trans hbody.reaches) hbare.1 hbare.2.1.2
    have hparts := TurningIf.append hbody hclauses
    have hlast := turning_stmtOption names last _ (hs.trans hparts.reaches) hbare.2.2
    refine ((hparts.append hlast).cons ⟨htypes.imp fun _ _ htype => htype.later hlast.reaches,
      .nil⟩).imp fun hfixed => ?_
    simp only [List.forall_mem_cons, List.forall_mem_append] at hfixed ⊢
    have hparams : ∀ c ∈ clauses, c.param.type.type.name ≠ "var" := fun c hc =>
      hfixed.1 c.param.type (List.mem_map_of_mem (f := fun c : Handler => c.param.type) hc)
    exact ⟨⟨hfixed.2.1.1, hparams, hfixed.2.1.2⟩, hfixed.2.2⟩
  | .assertion head c message, s, hs, hbare => by
    simp only [stmt, bind_apply, pure_apply, Stmt.visits, List.forall_mem_cons,
      List.forall_mem_append] at hbare ⊢
    have hc := turning_expr names c s hs hbare.2.1
    exact (hc.append (turning_exprOption names message _ (hs.trans hc.reaches) hbare.2.2)).cons
      ⟨.nil, .nil⟩
  | .localClass head id, s, _, _ => by
    simp only [stmt, pure_apply]
    exact (Turning.nil.cons ⟨.nil, .nil⟩).cons ⟨.nil, .nil⟩
  | .other head inner values, s, hs, hbare => by
    simp only [stmt_other, bind_apply, pure_apply, Stmt.visits, List.forall_mem_cons,
      List.forall_mem_append] at hbare ⊢
    have hvalues := turning_exprs names values s hs hbare.2.1
    exact (hvalues.append (turning_stmts names inner _ (hs.trans hvalues.reaches) hbare.2.2)).cons
      ⟨.nil, .nil⟩

theorem turning_stmts (names : Names) : (bs : List Stmt) → (s : Resolution) → start.Reaches s →
    (∀ v ∈ Stmt.visitsList bs, v.isBare = true) →
    Turning site start s (stmts site names bs s).2 (Stmt.visitsList bs)
      (Stmt.visitsList (stmts site names bs s).1.1)
  | [], s, _, _ => by
    simp only [stmts, pure_apply]
    exact .nil
  | b :: rest, s, hs, hbare => by
    simp only [stmts_cons, bind_apply, pure_apply, Stmt.visitsList,
      List.forall_mem_append] at hbare ⊢
    have hb := turning_stmt names b s hs hbare.1
    exact hb.append (turning_stmts (stmt site names b s).1.2 rest _ (hs.trans hb.reaches) hbare.2)

theorem turning_stmtOption (names : Names) :
    (b : Option Stmt) → (s : Resolution) → start.Reaches s →
    (∀ v ∈ Stmt.visitsOption b, v.isBare = true) →
    Turning site start s (stmtOption site names b s).2 (Stmt.visitsOption b)
      (Stmt.visitsOption (stmtOption site names b s).1.1)
  | none, s, _, _ => by
    simp only [stmtOption, pure_apply]
    exact .nil
  | some b, s, hs, hbare => by
    simp only [stmtOption_some, bind_apply, pure_apply, Stmt.visitsOption] at hbare ⊢
    exact turning_stmt names b s hs hbare

theorem turning_declared (names : Names) : (locals : List Local) → (s : Resolution) →
    start.Reaches s →
    (∀ v ∈ Local.visitsList locals, v.isBare = true) →
    Turning site start s (declared site names locals s).2 (Local.visitsList locals)
        (Local.visitsList (declared site names locals s).1.1) ∧
      List.Forall₂ (Infers site start (declared site names locals s).2)
        (locals.map inferredFromInit)
        ((declared site names locals s).1.1.map inferredFromInit)
  | [], s, _, _ => by
    simp only [declared, pure_apply]
    exact ⟨.nil, .nil⟩
  | .mk head name type init :: rest, s, hs, hbare => by
    simp only [declared_cons, bind_apply, pure_apply, Local.visitsList, Local.visits_eq,
      List.forall_mem_append, List.forall_mem_cons] at hbare ⊢
    have hinit := turning_exprOption names init s hs hbare.1.2
    obtain ⟨hvariable, hinferred⟩ :=
      turning_declareInferred names (hs.trans hinit.reaches) (.mk head name type init)
      (exprOption site names init s).1 (fun type => type) (exprOption site names init s).1
      (P := ∀ v ∈ Expr.visitsOption init, v.FixesNoVar)
      fun hground hfixed hclean type htype => by
        obtain ⟨e, he, htype⟩ := Option.bind_eq_some_iff.mp htype
        refine hclean.typeOf? site.owner e (fun v hv => ?_) type htype
        exact hinit.fixesNoVar hground hfixed v (by rwa [he, Expr.visitsOption])
    have hparts := TurningIf.swap hinit hvariable
    obtain ⟨hrest, hothers⟩ := turning_declared _ rest _ (hs.trans hparts.reaches) hbare.2
    refine ⟨(hparts.append hrest).imp fun hfixed => ?_,
      .cons ((hinferred _ _ rfl).later hrest.reaches) hothers⟩
    simp only [List.forall_mem_cons, List.forall_mem_append] at hfixed
    exact ⟨⟨hfixed.1.2, hfixed.1.2⟩, hfixed.2⟩

theorem turning_handlers (names : Names) : (clauses : List Handler) → (s : Resolution) →
    start.Reaches s →
    clauses.all (·.param.init.isNone) = true → (∀ v ∈ Handler.visitsList clauses, v.isBare = true) →
    TurningIf ((∀ c ∈ clauses, c.param.type.type.name ≠ "var") ∧ ∀ v ∈ Handler.visitsList clauses,
      v.FixesNoVar) site
        start s (handlers site names clauses s).2 (Handler.visitsList clauses)
        (Handler.visitsList (handlers site names clauses s).1) ∧
      List.Forall₂ (Qualifies site start (handlers site names clauses s).2)
        (clauses.map (·.param.type))
        ((handlers site names clauses s).1.map (·.param.type))
  | [], s, _, _, _ => by
    simp only [handlers, pure_apply]
    exact ⟨Turning.nil.imp (·.2), .nil⟩
  | .mk param body :: rest, s, hs, hparams, hbare => by
    simp only [handlers_cons, bind_apply, pure_apply, List.all_cons, Bool.and_eq_true,
      Handler.visitsList, Handler.visits, List.forall_mem_append] at hparams hbare ⊢
    obtain ⟨hparam, htype⟩ : _ ∧ Qualifies site _ _ _ _ := turning_declare names hs hparams.1
    let inner := (declare param.anchor param.name param.type param.init names site s).1.2
    have hbody := turning_stmt inner body _ (hs.trans hparam.reaches) hbare.1.2
    have hfirst := hparam.append hbody
    obtain ⟨hrest, htypes⟩ := turning_handlers names rest _
      (hs.trans hfirst.reaches) hparams.2 hbare.2
    refine ⟨(hfirst.append hrest).imp fun hfixed => ?_,
      .cons (htype.later (hbody.reaches.trans hrest.reaches)) htypes⟩
    simp only [List.forall_mem_cons] at hfixed
    exact ⟨⟨hfixed.1.1, hfixed.2.1.2⟩, hfixed.1.2, hfixed.2.2⟩

end

/-! ## Method after method -/

theorem tidy_methodBody (id : MethodId) (h : s.program.Tidy) :
    (methodBody id s).2.program.Tidy := by
  intro other m hm
  by_cases hgiven : s.program.HasGiven other
  · by_cases hself : other = id
    · subst hself
      cases hx : s.program.method? other with
      | none =>
        rw [methodBody_of_no_body (by simp [hx])] at hm
        exact h other m hm
      | some x =>
        cases hbody : x.body with
        | none =>
          rw [methodBody_of_no_body (by simp [hx, hbody])] at hm
          exact h other m hm
        | some body =>
          rw [method?_methodBody_self hx hbody] at hm
          cases hm
          have hvisits := h other x hx
          rw [Method.visits, hbody] at hvisits
          exact tidy_stmt _ _ hvisits s
    · rw [method?_methodBody_of_ne hself hgiven] at hm
      exact h other m hm
  · rw [Method.visits, ((resolves_methodBody id s).grows.newMethod hm hgiven).1.body_eq]
    exact ⟨List.forall_mem_nil _, List.nodup_nil⟩

/-- **The step.** The tables stay free of the type `var` from one body to the next. -/
theorem infersVar_methodBody (id : MethodId) (hground : s.program.Grounded) (htidy : s.program.Tidy)
    (h : s.InfersVar) :
    (methodBody id s).2.InfersVar := by
  cases hm : s.program.method? id with
  | none => rwa [methodBody_of_no_body (by simp [hm])]
  | some m =>
    cases hbody : m.body with
    | none => rwa [methodBody_of_no_body (by simp [hm, hbody])]
    | some body =>
      have hvisits : m.visits = body.visits := by
        rw [Method.visits, hbody]
        rfl
      have hfixed : ∀ v ∈ body.visits, v.FixesNoVar := hvisits ▸ (h.program.method? hm).body
      have hturning : Turning ⟨m.file, m.owner⟩ s s _ _ _ :=
        turning_stmt (parameterNames m) body s (.refl s) (hvisits ▸ htidy id m hm).bare
      have hend := hturning.infers hground (.refl s) hfixed h
      rw [methodBody_of_body hm hbody]
      exact ⟨hend.program.putBody _ (hturning.fixesNoVar hground hfixed), hend.locals⟩

/-- **The run.** -/
theorem infersVar_run (ids : List MethodId) (s : Resolution) (hground : s.program.Grounded)
    (htidy : s.program.Tidy) (h : s.InfersVar) : (run ids s).InfersVar := by
  induction ids generalizing s with
  | nil => exact h
  | cons id rest ih =>
    rw [run_cons]
    apply ih
    · exact hground.resolves (resolves_methodBody id s)
    · exact tidy_methodBody id htidy
    · exact infersVar_methodBody id hground htidy h

end Resolve

end KernelLint
