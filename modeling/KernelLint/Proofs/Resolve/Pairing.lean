import KernelLint.Proofs.Resolve.Found
import KernelLint.Proofs.Resolve.LocalTypes

/-!
# Bodies before and after

The walk of a resolved body stops where the walk of the body before it does. What stands at a stop
afterwards was made there from what stood there before, at some state between the beginning and the
end of the traversal (`Becomes`): a type is qualified in the program of that state, a constructor
and a method are looked up in it. A variable that a name denotes has its type in the table by then,
since whatever is in scope was declared before (`Known`). Pairs of walks are put together in the
order of the states (`Runs`), which is the order of the walks but for the variable of a for-each
loop. At the end of a body the table holds one more entry for each variable that the second walk
meets.
-/

namespace KernelLint

/-! ## States -/

/-- The second state comes later in a resolution: its program has grown, and its table has new
entries in front. -/
structure Resolution.Leads (s t : Resolution) : Prop where
  grows : s.program.Grows t.program
  entries : s.localTypes <:+ t.localTypes

namespace Resolution

variable {s t u start : Resolution} {node : NodeId}

theorem Leads.refl (s : Resolution) : s.Leads s := ⟨.refl _, List.suffix_rfl⟩

theorem Leads.trans (h : s.Leads t) (h' : t.Leads u) :
    s.Leads u := ⟨h.grows.trans h'.grows, h.entries.trans h'.entries⟩

/-- The variable got its type after the first state. -/
def Logged (start s : Resolution) (node : NodeId) : Prop :=
  ∃ entries type, s.localTypes = entries ++ start.localTypes ∧ (node, type) ∈ entries

theorem Logged.later (h : start.Logged s node) (hleads : s.Leads t) : start.Logged t node := by
  obtain ⟨entries, type, hs, hmem⟩ := h
  obtain ⟨front, ht⟩ := hleads.entries
  refine ⟨front ++ entries, type, ?_, List.mem_append_right _ hmem⟩
  rw [← ht, hs, List.append_assoc]

end Resolution

namespace Resolve

variable {site : Site} {start s t u : Resolution} {names : Names}

theorem Advances.leads {α : Type} {x : Resolve α} (hx : Advances x) (s : Resolution) :
    s.Leads (x s).2 :=
  ⟨(hx.adds s).grows, by simp only [hx.localTypes, List.suffix_rfl]⟩

theorem advances_element (element : Option TypeUse) (site : Site) :
    Advances (element.mapM (qualifyUse · site)) := by
  cases element with
  | none => exact .pure _
  | some type => exact (advances_qualifyUse type site).bind fun _ => .pure _

/-- The state is later than the first one, and the variables in scope got their types in between. -/
structure Known (start s : Resolution) (names : Names) : Prop where
  leads : start.Leads s
  logged : ∀ name node, (name, Declaration.localVar node) ∈ names → start.Logged s node

theorem Known.later (h : Known start s names) (hleads : s.Leads t) : Known start t names :=
  ⟨h.leads.trans hleads, fun name node hmem => (h.logged name node hmem).later hleads⟩

theorem known_parameterNames (m : Method) (s : Resolution) : Known s s (parameterNames m) := by
  refine ⟨.refl s, fun name node hmem => ?_⟩
  simp [parameterNames] at hmem

theorem declare_apply (head : Anchor) (name : String) (type : TypeUse) (init : Option Expr)
    (names : Names) (site : Site) (s : Resolution) : declare head name type init names site s =
      ((.mk head name (s.program.qualifyUse type site) init, (name, .localVar head.node) :: names),
        { s with localTypes := (head.node, (s.program.qualifyUse type site).type) ::
          s.localTypes }) := rfl

theorem leads_declare (site : Site) (head : Anchor) (name : String) (type : TypeUse)
    (init : Option Expr) (names : Names) (s : Resolution) :
    s.Leads (declare head name type init names site s).2 := by
  rw [declare_apply]
  exact ⟨.refl _, List.suffix_cons _ _⟩

theorem Known.declare (h : Known start s names) (head : Anchor) (name : String) (type : TypeUse)
    (init : Option Expr) :
    Known start (Resolve.declare head name type init names site s).2
      (Resolve.declare head name type init names site s).1.2 := by
  have hlater := h.later (leads_declare site head name type init names s)
  refine ⟨hlater.leads, fun other node hmem => ?_⟩
  rcases List.mem_cons.mp hmem with heq | hmem
  · obtain ⟨-, hnode⟩ := Prod.mk.inj heq
    obtain rfl := Declaration.localVar.inj hnode
    obtain ⟨front, hs⟩ := h.leads.entries
    refine ⟨(head.node, (s.program.qualifyUse type site).type) :: front, _, ?_, List.mem_cons_self⟩
    rw [declare_apply, List.cons_append, hs]
  · exact hlater.logged other node hmem

/-! ## Stops -/

/-- What stands at a stop after the traversal, between its first and its last state, was made from
what stood there. -/
inductive Becomes (site : Site) (start u : Resolution) : Visit → Visit → Prop
  | stmt (b b' : Stmt) : Becomes site start u (.stmt b) (.stmt b')
  | localClass (id : ClassId) : Becomes site start u (.localClass id) (.localClass id)
  | localVar {l l' : Local} (hnode : l'.node = l.node) (htype : l.type.type.name ≠ "var" →
      ∃ t : Resolution, start.Leads t ∧ t.Leads u ∧ l'.type = t.program.qualifyUse l.type site) :
    Becomes site start u (.localVar l) (.localVar l')
  | name {head : Excerpt} {id : String} {qualifier qualifier' : Option Expr}
      {target target' : Option Declaration}
      (hlogged : ∀ node, qualifier' = none → target' = some (.localVar node) →
        start.Logged u node) :
    Becomes site start u (.expr (.name head id qualifier target))
      (.expr (.name head id qualifier' target'))
  | call {head : Excerpt} {id : String} {qualifier qualifier' : Option Expr}
      {args args' : List Expr}
      {target : Option MethodId} {t : Resolution} (hstart : start.Leads t) (hend : t.Leads u)
      (hargs : args'.length = args.length)
      (hlogged : ∀ head x node, qualifier' = some (.name head x none (some (.localVar node))) →
        start.Logged t node) :
    Becomes site start u (.expr (.call head id qualifier args target))
      (.expr (.call head id qualifier' args' (callTarget id qualifier' args'.length site t).1))
  | create {head : Excerpt} {type : TypeUse} {args args' : List Expr} {target : Option MethodId}
      {r t : Resolution}
      (hstart : start.Leads r) (hnext : r.Leads t) (hend : t.Leads u)
        (hargs : args'.length = args.length) :
    Becomes site start u (.expr (.create head type args target))
      (.expr (.create head (r.program.qualifyUse type site) args'
        (t.program.findConstructor? (r.program.qualifyUse type site).type args'.length)))
  | plain {e e' : Expr} (he : e.isTargeted = false) (he' : e'.isTargeted = false) :
    Becomes site start u (.expr e) (.expr e')

theorem Becomes.later {v v' : Visit} (h : Becomes site start t v v') (hleads : t.Leads u) :
    Becomes site start u v v' := by
  cases h with
  | stmt b b' => exact .stmt b b'
  | localClass id => exact .localClass id
  | localVar hnode htype =>
    refine .localVar hnode fun hvar => ?_
    obtain ⟨r, hstart, hend, hqualified⟩ := htype hvar
    exact ⟨r, hstart, hend.trans hleads, hqualified⟩
  | name hlogged => exact .name fun node hnone htarget => (hlogged node hnone htarget).later hleads
  | call hstart hend hargs hlogged => exact .call hstart (hend.trans hleads) hargs hlogged
  | create hstart hnext hend hargs => exact .create hstart hnext (hend.trans hleads) hargs
  | plain he he' => exact .plain he he'

theorem Becomes.rel_expr? {v v' : Visit} (h : Becomes site start u v v') {R : Expr → Expr → Prop}
    (hR : ∀ e e', Becomes site start u (.expr e) (.expr e') → R e e') :
    Option.Rel R v.expr? v'.expr? := by
  cases h with
  | stmt => exact .none
  | localClass => exact .none
  | localVar => exact .none
  | name hlogged => exact .some (hR _ _ (.name hlogged))
  | call hstart hend hargs hlogged => exact .some (hR _ _ (.call hstart hend hargs hlogged))
  | create hstart hnext hend hargs => exact .some (hR _ _ (.create hstart hnext hend hargs))
  | plain he he' => exact .some (hR _ _ (.plain he he'))

theorem exists_of_forall₂ {α β : Type} {R : α → β → Prop} {as : List α} {bs : List β}
    (h : List.Forall₂ R as bs) {b : β} (hb : b ∈ bs) : ∃ a ∈ as, R a b := by
  induction h with
  | nil => cases hb
  | cons hab _ ih =>
    rcases List.mem_cons.mp hb with rfl | hb
    · exact ⟨_, List.mem_cons_self, hab⟩
    · obtain ⟨a, ha, hab⟩ := ih hb
      exact ⟨a, List.mem_cons_of_mem _ ha, hab⟩

/-- From one state to a later one the first walk becomes the second one, and its variables get their
types. -/
structure Runs (site : Site) (start s u : Resolution) (visits visits' : List Visit) : Prop where
  leads : s.Leads u
  paired : List.Forall₂ (Becomes site start u) visits visits'
  logs : Logs s.localTypes u.localTypes visits'

namespace Runs

variable {visits visits' more more' : List Visit} {v v' : Visit}

theorem nil : Runs site start s s [] [] := ⟨.refl s, .nil, .nil⟩

theorem advance (h : Runs site start s t visits visits') {α : Type} {x : Resolve α}
    (hx : Advances x) :
    Runs site start s (x t).2 visits visits' where
  leads := h.leads.trans (hx.leads t)
  paired := h.paired.imp fun _ _ hv => hv.later (hx.leads t)
  logs := by simpa only [hx.localTypes] using h.logs

theorem append (h : Runs site start s t visits visits') (h' : Runs site start t u more more') :
    Runs site start s u (visits ++ more) (visits' ++ more') where
  leads := h.leads.trans h'.leads
  paired := List.rel_append (h.paired.imp fun _ _ hv => hv.later h'.leads) h'.paired
  logs := h.logs.append h'.logs

theorem swap (h : Runs site start s t more more') (h' : Runs site start t u visits visits') :
    Runs site start s u (visits ++ more) (visits' ++ more') where
  leads := h.leads.trans h'.leads
  paired := List.rel_append h'.paired (h.paired.imp fun _ _ hv => hv.later h'.leads)
  logs := h.logs.swap h'.logs

theorem cons (h : Runs site start s u visits visits') (hv : Becomes site start u v v')
    (hvar : v'.localVar? = none) :
    Runs site start s u (v :: visits) (v' :: visits') :=
  ⟨h.leads, .cons hv h.paired, h.logs.cons hvar⟩

theorem stmt (h : Runs site start s u visits visits') (b b' : Stmt) :
    Runs site start s u (.stmt b :: visits) (.stmt b' :: visits') :=
  h.cons (.stmt b b') rfl

theorem plain (h : Runs site start s u visits visits') {e e' : Expr} (he : e.isTargeted = false)
    (he' : e'.isTargeted = false) : Runs site start s u (.expr e :: visits) (.expr e' :: visits') :=
  h.cons (.plain he he') rfl

theorem exists_becomes (h : Runs site start s u visits visits') (hmem : v' ∈ visits') :
    ∃ v ∈ visits, Becomes site start u v v' :=
  exists_of_forall₂ h.paired hmem

end Runs

/-! ## Names -/

theorem logged_of_simpleName {id text : String} (h : Known start s names) {node : NodeId}
    (htarget : (nameTarget id none text names site s).1 = some (.localVar node)) :
    start.Logged (nameTarget id none text names site s).2 node := by
  have hfound := (yields_simpleTarget (p := s.program) id names site).holds s _ (.refl _) (.refl _)
  have hleads := (advances_simpleTarget id names site).leads s
  refine Known.logged (h.later hleads) id node ?_
  cases hlookup : names.lookup id with
  | none => exact (hfound.2 hlookup _ htarget).elim
  | some d =>
    obtain rfl := Option.some.inj ((hfound.1 d hlookup).symm.trans htarget)
    obtain ⟨before, after, hsplit, -⟩ := List.lookup_eq_some_iff.mp hlookup
    rw [hsplit]
    exact List.mem_append_right _ List.mem_cons_self

theorem Runs.logged {visits visits' : List Visit} (h : Runs site start s u visits visits')
    {head : Excerpt} {x : String} {node : NodeId}
    (hmem : Visit.expr (.name head x none (some (.localVar node))) ∈ visits') :
    start.Logged u node := by
  obtain ⟨v, -, hv⟩ := h.exists_becomes hmem
  cases hv with
  | name hlogged => exact hlogged node rfl rfl
  | plain _ he' => cases he'

theorem localType?_of_logged {visits : List Visit} {node : NodeId} (h : start.Logged t node)
    (hleads : t.Leads u) (hlogs : Logs start.localTypes u.localTypes visits) :
    ∃ l, Visit.localVar l ∈ visits ∧ l.node = node ∧ t.localType? node = some l.type.type := by
  obtain ⟨known, type, ht, hmem⟩ := h
  obtain ⟨front, hu⟩ := hleads.entries
  obtain ⟨entries, hlogged, hentries⟩ := hlogs
  obtain rfl : front ++ known = entries := by
    refine (List.append_left_inj start.localTypes).mp ?_
    rw [← hlogged, ← hu, ht, List.append_assoc]
  cases hfound : known.lookup node with
  | none => simpa using List.lookup_eq_none_iff.mp hfound _ hmem
  | some found =>
    obtain ⟨before, after, rfl, -⟩ := List.lookup_eq_some_iff.mp hfound
    obtain ⟨l, hl, hentry⟩ := (hentries (node, found)).mp (by simp)
    obtain ⟨rfl, rfl⟩ := Prod.mk.inj hentry
    refine ⟨l, hl, rfl, ?_⟩
    rw [Resolution.localType?, ht, List.lookup_append, hfound]
    rfl

/-! ## Variables -/

theorem becomes_declare (hk : Known start s names) (l : Local) {type : TypeUse} (init : Option Expr)
    (htype : l.type.type.name ≠ "var" → type = l.type) :
    Becomes site start (declare l.anchor l.name type init names site s).2 (.localVar l)
      (.localVar (declare l.anchor l.name type init names site s).1.1) := by
  refine .localVar rfl fun hvar => ⟨s, hk.leads, leads_declare .., ?_⟩
  rw [declare_apply, ← htype hvar]
  rfl

theorem Runs.declare {visits visits' : List Visit} (h : Runs site start s t visits visits')
    (hk : Known start t names) (l : Local) {type : TypeUse} (init : Option Expr)
    (htype : l.type.type.name ≠ "var" → type = l.type) :
    Runs site start s (declare l.anchor l.name type init names site t).2 (.localVar l :: visits)
      (.localVar (declare l.anchor l.name type init names site t).1.1 :: visits') where
  leads := h.leads.trans (leads_declare ..)
  paired := .cons (becomes_declare hk l init htype)
    (h.paired.imp fun _ _ hv => hv.later (leads_declare ..))
  logs := h.logs.declare (Resolve.declare l.anchor l.name type init names site t).1.1

theorem runs_declare (site : Site) (hk : Known start s names) {l : Local}
    (hbare : l.init.isNone = true) :
    Runs site start s (declare l.anchor l.name l.type l.init names site s).2 l.visits
      (declare l.anchor l.name l.type l.init names site s).1.1.visits := by
  rw [visits_of_bare hbare, visits_of_bare
    (l := (declare l.anchor l.name l.type l.init names site s).1.1) hbare]
  exact Runs.nil.declare hk l l.init fun _ => rfl

theorem Runs.declareInferred {visits visits' : List Visit} (h : Runs site start s t visits visits')
    (hk : Known start t names) (l : Local) (source : Option Expr)
    (view : Option ErasedType → Option ErasedType) (init : Option Expr) :
    Runs site start s (declareInferred site source view l.anchor l.name l.type init names t).2
      (.localVar l :: visits)
        (.localVar (declareInferred site source view l.anchor l.name l.type init names t).1.1 ::
          visits') ∧
      Known start (declareInferred site source view l.anchor l.name l.type init names t).2
        (declareInferred site source view l.anchor l.name l.type init names t).1.2 :=
  ⟨h.declare hk l init fun hvar => inferType_of_ne hvar _, hk.declare ..⟩

theorem runs_declareInferred (site : Site) (hk : Known start s names) {l : Local}
    (hbare : l.init.isNone = true) (source : Option Expr)
    (view : Option ErasedType → Option ErasedType) :
    Runs site start s
      (declareInferred site source view l.anchor l.name l.type l.init names s).2 l.visits
        (declareInferred site source view l.anchor l.name l.type l.init names s).1.1.visits ∧
      Known start (declareInferred site source view l.anchor l.name l.type l.init names s).2
        (declareInferred site source view l.anchor l.name l.type l.init names s).1.2 := by
  rw [visits_of_bare hbare,
    visits_of_bare
      (l := (declareInferred site source view l.anchor l.name l.type l.init names s).1.1) hbare]
  exact Runs.nil.declareInferred hk l source view l.init

theorem runs_declareAll (site : Site) (locals : List Local) (hk : Known start s names)
    (hbare : locals.all (·.init.isNone) = true) :
    Runs site start s (declareAll site locals names s).2 (Local.visitsList locals)
      (Local.visitsList (declareAll site locals names s).1.1) ∧
    Known start (declareAll site locals names s).2 (declareAll site locals names s).1.2 := by
  induction locals generalizing names s with
  | nil => exact ⟨.nil, hk⟩
  | cons l rest ih =>
    rw [List.all_cons, Bool.and_eq_true] at hbare
    simp only [declareAll_cons, bind_apply, pure_apply, Local.visitsList]
    obtain ⟨hrest, hknown⟩ := ih (hk.declare l.anchor l.name l.type l.init) hbare.2
    exact ⟨(runs_declare site hk hbare.1).append hrest, hknown⟩

/-! ## Bodies -/

theorem length_exprs (names : Names) (es : List Expr) (s : Resolution) :
    (exprs site names es s).1.length = es.length := by
  induction es generalizing s with
  | nil => simp [exprs, pure_apply]
  | cons e rest ih => simp only [exprs, bind_apply, pure_apply, List.length_cons, ih]

mutual

theorem runs_expr (names : Names) : (e : Expr) → (s : Resolution) → Known start s names →
    (∀ v ∈ e.visits, v.isBare = true) →
    Runs site start s (expr site names e s).2 e.visits (expr site names e s).1.visits
  | .literal head kind, s, _, _ => by
    simp only [expr, pure_apply]
    exact Runs.nil.plain rfl rfl
  | .self head isSuper, s, _, _ => by
    simp only [expr, pure_apply]
    exact Runs.nil.plain rfl rfl
  | .name head id qualifier target, s, hk, hbare => by
    simp only [expr, bind_apply, pure_apply, Expr.visits, List.forall_mem_cons] at hbare ⊢
    have hqualifier := runs_exprOption names qualifier s hk hbare.2
    refine (hqualifier.advance (advances_nameTarget ..)).cons
      (.name fun node hnone htarget => ?_) rfl
    rw [hnone] at htarget ⊢
    exact logged_of_simpleName (hk.later hqualifier.leads) htarget
  | .call head id qualifier args target, s, hk, hbare => by
    simp only [expr, bind_apply, pure_apply, Expr.visits, List.forall_mem_cons,
      List.forall_mem_append] at hbare ⊢
    have hqualifier := runs_exprOption names qualifier s hk hbare.2.1
    have hargs := runs_exprs names args _ (hk.later hqualifier.leads) hbare.2.2
    have hleads := (hqualifier.append hargs).leads
    refine ((hqualifier.append hargs).advance (advances_callTarget ..)).cons ?_ rfl
    refine .call (hk.leads.trans hleads) ((advances_callTarget ..).leads _)
      (length_exprs names args _) ?_
    intro head' x node hname
    have hmem : Visit.expr (.name head' x none (some (.localVar node))) ∈
        Expr.visitsOption (exprOption site names qualifier s).1 := by
      rw [hname, Expr.visitsOption, Expr.visits]
      exact List.mem_cons_self
    exact (hqualifier.logged hmem).later hargs.leads
  | .create head type args target, s, hk, hbare => by
    simp only [expr, bind_apply, get_apply, pure_apply, Expr.visits,
      List.forall_mem_cons] at hbare ⊢
    have hargs := runs_exprs names args s hk hbare.2
    exact hargs.cons (.create hk.leads hargs.leads (.refl _) (length_exprs names args s)) rfl
  | .paren head inner, s, hk, hbare => by
    simp only [expr, bind_apply, pure_apply, Expr.visits, List.forall_mem_cons] at hbare ⊢
    exact (runs_expr names inner s hk hbare.2).plain rfl rfl
  | .unary head op operand isPre, s, hk, hbare => by
    simp only [expr, bind_apply, pure_apply, Expr.visits, List.forall_mem_cons] at hbare ⊢
    exact (runs_expr names operand s hk hbare.2).plain rfl rfl
  | .binary head op left right, s, hk, hbare => by
    simp only [expr, bind_apply, pure_apply, Expr.visits, List.forall_mem_cons,
      List.forall_mem_append] at hbare ⊢
    have hleft := runs_expr names left s hk hbare.2.1
    exact (hleft.append (runs_expr names right _ (hk.later hleft.leads) hbare.2.2)).plain rfl rfl
  | .conditional head c t f, s, hk, hbare => by
    simp only [expr, bind_apply, pure_apply, Expr.visits, List.forall_mem_cons,
      List.forall_mem_append] at hbare ⊢
    have hc := runs_expr names c s hk hbare.2.1.1
    have ht := hc.append (runs_expr names t _ (hk.later hc.leads) hbare.2.1.2)
    exact (ht.append (runs_expr names f _ (hk.later ht.leads) hbare.2.2)).plain rfl rfl
  | .cast head type operand, s, hk, hbare => by
    simp only [expr, bind_apply, pure_apply, Expr.visits, List.forall_mem_cons] at hbare ⊢
    exact (runs_expr names operand s hk hbare.2).plain rfl rfl
  | .assign head op target value, s, hk, hbare => by
    simp only [expr, bind_apply, pure_apply, Expr.visits, List.forall_mem_cons,
      List.forall_mem_append] at hbare ⊢
    have htarget := runs_expr names target s hk hbare.2.1
    exact (htarget.append (runs_expr names value _ (hk.later htarget.leads) hbare.2.2)).plain rfl
      rfl
  | .index head array position, s, hk, hbare => by
    simp only [expr, bind_apply, pure_apply, Expr.visits, List.forall_mem_cons,
      List.forall_mem_append] at hbare ⊢
    have harray := runs_expr names array s hk hbare.2.1
    exact (harray.append (runs_expr names position _ (hk.later harray.leads) hbare.2.2)).plain rfl
      rfl
  | .newArray head element sizes entries, s, hk, hbare => by
    simp only [expr, bind_apply, pure_apply, Expr.visits, List.forall_mem_cons,
      List.forall_mem_append] at hbare ⊢
    have helement : Runs site start s (element.mapM (qualifyUse · site) s).2 [] [] :=
      Runs.nil.advance (advances_element element site)
    have hsizes := helement.append (runs_exprs names sizes _ (hk.later helement.leads) hbare.2.1)
    exact (hsizes.append (runs_exprs names entries _ (hk.later hsizes.leads) hbare.2.2)).plain rfl
      rfl
  | .lambda head params body, s, hk, hbare => by
    simp only [expr_lambda, bind_apply, pure_apply, Expr.visits, List.forall_mem_cons,
      List.forall_mem_append] at hbare ⊢
    obtain ⟨hparams, hknown⟩ := runs_declareAll site params hk hbare.1
    exact (hparams.append (runs_stmt _ body _ hknown hbare.2.2).1).plain rfl rfl
  | .other head children, s, hk, hbare => by
    simp only [expr, bind_apply, pure_apply, Expr.visits, List.forall_mem_cons] at hbare ⊢
    exact (runs_exprs names children s hk hbare.2).plain rfl rfl

theorem runs_exprs (names : Names) : (es : List Expr) → (s : Resolution) → Known start s names →
    (∀ v ∈ Expr.visitsList es, v.isBare = true) →
    Runs site start s (exprs site names es s).2 (Expr.visitsList es)
      (Expr.visitsList (exprs site names es s).1)
  | [], s, _, _ => by
    simp only [exprs, pure_apply]
    exact .nil
  | e :: rest, s, hk, hbare => by
    simp only [exprs, bind_apply, pure_apply, Expr.visitsList, List.forall_mem_append] at hbare ⊢
    have he := runs_expr names e s hk hbare.1
    exact he.append (runs_exprs names rest _ (hk.later he.leads) hbare.2)

theorem runs_exprOption (names : Names) :
    (e : Option Expr) → (s : Resolution) → Known start s names →
    (∀ v ∈ Expr.visitsOption e, v.isBare = true) →
    Runs site start s (exprOption site names e s).2 (Expr.visitsOption e)
      (Expr.visitsOption (exprOption site names e s).1)
  | none, s, _, _ => by
    simp only [exprOption, pure_apply]
    exact .nil
  | some e, s, hk, hbare => by
    simp only [exprOption, bind_apply, pure_apply, Expr.visitsOption] at hbare ⊢
    exact runs_expr names e s hk hbare

/-- **Bodies before and after.** -/
theorem runs_stmt (names : Names) : (b : Stmt) → (s : Resolution) → Known start s names →
    (∀ v ∈ b.visits, v.isBare = true) →
    Runs site start s (stmt site names b s).2 b.visits (stmt site names b s).1.1.visits ∧
      Known start (stmt site names b s).2 (stmt site names b s).1.2
  | .declare head locals, s, hk, hbare => by
    simp only [stmt_declare, bind_apply, pure_apply, Stmt.visits, List.forall_mem_cons] at hbare ⊢
    obtain ⟨hlocals, hknown⟩ := runs_declared names locals s hk hbare.2
    exact ⟨hlocals.stmt _ _, hknown⟩
  | .eval head e, s, hk, hbare => by
    simp only [stmt, bind_apply, pure_apply, Stmt.visits, List.forall_mem_cons] at hbare ⊢
    have he := runs_expr names e s hk hbare.2
    exact ⟨he.stmt _ _, hk.later he.leads⟩
  | .raise head e, s, hk, hbare => by
    simp only [stmt, bind_apply, pure_apply, Stmt.visits, List.forall_mem_cons] at hbare ⊢
    have he := runs_expr names e s hk hbare.2
    exact ⟨he.stmt _ _, hk.later he.leads⟩
  | .block head inner, s, hk, hbare => by
    simp only [stmt_block, bind_apply, pure_apply, Stmt.visits, List.forall_mem_cons] at hbare ⊢
    have hinner := (runs_stmts names inner s hk hbare.2).1
    exact ⟨hinner.stmt _ _, hk.later hinner.leads⟩
  | .branch head c t f, s, hk, hbare => by
    simp only [stmt_branch, bind_apply, pure_apply, Stmt.visits, List.forall_mem_cons,
      List.forall_mem_append] at hbare ⊢
    have hc := runs_expr names c s hk hbare.2.1.1
    have ht := hc.append (runs_stmt names t _ (hk.later hc.leads) hbare.2.1.2).1
    have hf := ht.append (runs_stmtOption names f _ (hk.later ht.leads) hbare.2.2).1
    exact ⟨hf.stmt _ _, hk.later hf.leads⟩
  | .loop head init c update body, s, hk, hbare => by
    simp only [stmt_loop, bind_apply, pure_apply, Stmt.visits, List.forall_mem_cons,
      List.forall_mem_append] at hbare ⊢
    obtain ⟨hinit, hknown⟩ := runs_stmts names init s hk hbare.2.1.1.1
    have hc := runs_exprOption _ c _ hknown hbare.2.1.1.2
    have hupdate := runs_exprs _ update _ (hknown.later hc.leads) hbare.2.1.2
    have hbody := (runs_stmt _ body _ ((hknown.later hc.leads).later hupdate.leads) hbare.2.2).1
    have hparts := ((hinit.append hc).append hupdate).append hbody
    exact ⟨hparts.stmt _ _, hk.later hparts.leads⟩
  | .forEach head item iterable body, s, hk, hbare => by
    simp only [stmt_forEach, bind_apply, pure_apply, Stmt.visits, List.forall_mem_cons,
      List.forall_mem_append] at hbare ⊢
    have hiterable := runs_expr names iterable s hk hbare.2.1.2
    obtain ⟨hitem, hknown⟩ := runs_declareInferred site (hk.later hiterable.leads) hbare.1
      (some (expr site names iterable s).1) (·.bind ErasedType.entry?)
    have hbody := (runs_stmt _ body _ hknown hbare.2.2).1
    -- The walk meets the variable first, though the iterable is resolved before it.
    have hparts := (hiterable.swap hitem).append hbody
    exact ⟨hparts.stmt _ _, hk.later hparts.leads⟩
  | .ret head value, s, hk, hbare => by
    simp only [stmt, bind_apply, pure_apply, Stmt.visits, List.forall_mem_cons] at hbare ⊢
    have hvalue := runs_exprOption names value s hk hbare.2
    exact ⟨hvalue.stmt _ _, hk.later hvalue.leads⟩
  | .attempt head resources body clauses last, s, hk, hbare => by
    simp only [stmt_attempt, bind_apply, pure_apply, Stmt.visits, List.forall_mem_cons,
      List.forall_mem_append] at hbare ⊢
    obtain ⟨hresources, hknown⟩ := runs_stmts names resources s hk hbare.2.1.1.1
    have hbody := hresources.append (runs_stmt _ body _ hknown hbare.2.1.1.2).1
    have hclauses :=
      hbody.append (runs_handlers names clauses _ (hk.later hbody.leads) hbare.1 hbare.2.1.2)
    obtain ⟨hlast, hknown⟩ := runs_stmtOption names last _ (hk.later hclauses.leads) hbare.2.2
    exact ⟨(hclauses.append hlast).stmt _ _, hknown⟩
  | .assertion head c message, s, hk, hbare => by
    simp only [stmt, bind_apply, pure_apply, Stmt.visits, List.forall_mem_cons,
      List.forall_mem_append] at hbare ⊢
    have hc := runs_expr names c s hk hbare.2.1
    have hmessage := hc.append (runs_exprOption names message _ (hk.later hc.leads) hbare.2.2)
    exact ⟨hmessage.stmt _ _, hk.later hmessage.leads⟩
  | .localClass head id, s, hk, _ => by
    simp only [stmt, pure_apply]
    exact ⟨(Runs.nil.cons (.localClass id) rfl).stmt _ _, hk⟩
  | .other head inner values, s, hk, hbare => by
    simp only [stmt_other, bind_apply, pure_apply, Stmt.visits, List.forall_mem_cons,
      List.forall_mem_append] at hbare ⊢
    have hvalues := runs_exprs names values s hk hbare.2.1
    have hinner := hvalues.append (runs_stmts names inner _ (hk.later hvalues.leads) hbare.2.2).1
    exact ⟨hinner.stmt _ _, hk.later hinner.leads⟩

theorem runs_stmts (names : Names) : (bs : List Stmt) → (s : Resolution) → Known start s names →
    (∀ v ∈ Stmt.visitsList bs, v.isBare = true) →
    Runs site start s (stmts site names bs s).2 (Stmt.visitsList bs)
      (Stmt.visitsList (stmts site names bs s).1.1) ∧
      Known start (stmts site names bs s).2 (stmts site names bs s).1.2
  | [], s, hk, _ => by
    simp only [stmts, pure_apply]
    exact ⟨.nil, hk⟩
  | b :: rest, s, hk, hbare => by
    simp only [stmts_cons, bind_apply, pure_apply, Stmt.visitsList,
      List.forall_mem_append] at hbare ⊢
    obtain ⟨hb, hknown⟩ := runs_stmt names b s hk hbare.1
    obtain ⟨hrest, hknown⟩ := runs_stmts _ rest _ hknown hbare.2
    exact ⟨hb.append hrest, hknown⟩

theorem runs_stmtOption (names : Names) :
    (b : Option Stmt) → (s : Resolution) → Known start s names →
    (∀ v ∈ Stmt.visitsOption b, v.isBare = true) →
    Runs site start s (stmtOption site names b s).2 (Stmt.visitsOption b)
        (Stmt.visitsOption (stmtOption site names b s).1.1) ∧
      Known start (stmtOption site names b s).2 (stmtOption site names b s).1.2
  | none, s, hk, _ => by
    simp only [stmtOption, pure_apply]
    exact ⟨.nil, hk⟩
  | some b, s, hk, hbare => by
    simp only [stmtOption_some, bind_apply, pure_apply, Stmt.visitsOption] at hbare ⊢
    exact runs_stmt names b s hk hbare

theorem runs_declared (names : Names) : (locals : List Local) → (s : Resolution) →
    Known start s names →
    (∀ v ∈ Local.visitsList locals, v.isBare = true) →
    Runs site start s (declared site names locals s).2 (Local.visitsList locals)
        (Local.visitsList (declared site names locals s).1.1) ∧
      Known start (declared site names locals s).2 (declared site names locals s).1.2
  | [], s, hk, _ => by
    simp only [declared, pure_apply]
    exact ⟨.nil, hk⟩
  | .mk head name type init :: rest, s, hk, hbare => by
    simp only [declared_cons, bind_apply, pure_apply, Local.visitsList, Local.visits_eq,
      List.forall_mem_append, List.forall_mem_cons] at hbare ⊢
    have hinit := runs_exprOption names init s hk hbare.1.2
    obtain ⟨hvariable, hknown⟩ :=
      hinit.declareInferred (hk.later hinit.leads) (.mk head name type init)
      (exprOption site names init s).1 (fun type => type) (exprOption site names init s).1
    obtain ⟨hrest, hknown⟩ := runs_declared _ rest _ hknown hbare.2
    exact ⟨hvariable.append hrest, hknown⟩

theorem runs_handlers (names : Names) : (clauses : List Handler) → (s : Resolution) →
    Known start s names →
    clauses.all (·.param.init.isNone) = true → (∀ v ∈ Handler.visitsList clauses, v.isBare = true) →
    Runs site start s (handlers site names clauses s).2 (Handler.visitsList clauses)
      (Handler.visitsList (handlers site names clauses s).1)
  | [], s, _, _, _ => by
    simp only [handlers, pure_apply]
    exact .nil
  | .mk param body :: rest, s, hk, hparams, hbare => by
    simp only [handlers_cons, bind_apply, pure_apply, List.all_cons, Bool.and_eq_true,
      Handler.visitsList, Handler.visits, List.forall_mem_append] at hparams hbare ⊢
    have hparam := runs_declare site hk hparams.1
    have hbody := hparam.append (runs_stmt _ body _ (hk.declare ..) hbare.1.2).1
    exact hbody.append (runs_handlers names rest _ (hk.later hbody.leads) hparams.2 hbare.2)

end

end Resolve

end KernelLint
