import KernelLint.Proofs.Program.Live
import KernelLint.Proofs.Resolve.Growth
import KernelLint.Proofs.Syntax.Alike
import KernelLint.Proofs.Syntax.Scope

/-!
# The traversal of bodies

Resolution goes through a body once. `Yields` says what a computation answers, with every program
that the one it leaves can grow into, so that what was true of a part stays true while the rest is
resolved. The traversal is done here once for all: whatever the targets of single names, calls and
object creations satisfy (`Aims`), the spots of the whole body satisfy, and the body is alike the
one before (`yields_stmt`). From there it goes to the bodies of a whole program.
-/

namespace KernelLint

namespace Resolve

/-! ## What a computation yields -/

/-- From every program that `p` grows into, the computation only adds, and what it answers satisfies
`Q` with every program that the resulting one grows into. -/
structure Yields {α : Type} (p : Program) (x : Resolve α) (Q : Program → α → Prop) : Prop where
  adds : ∀ s : Resolution, p.Grows s.program → s.program.Adds (x s).2.program
  holds : ∀ (s : Resolution) (q : Program), p.Grows s.program → (x s).2.program.Grows q →
    Q q (x s).1

variable {α β : Type} {p : Program} {x : Resolve α} {f : α → Resolve β} {Q : Program → α → Prop}
  {R : Program → β → Prop}

theorem Yields.pure {a : α} (h : ∀ q, p.Grows q → Q q a) : Yields p (pure a) Q :=
  ⟨fun s _ => .refl s.program, fun _ q hs hq => h q (hs.trans hq)⟩

theorem Yields.bind (hx : Yields p x Q)
    (hf : ∀ a, (∃ q, Q q a) → Yields p (f a) fun q b => Q q a → R q b) :
    Yields p (x >>= f) R := by
  have hnext : ∀ s : Resolution, p.Grows s.program →
      p.Grows (x s).2.program ∧ Yields p (f (x s).1) fun q b => Q q (x s).1 → R q b := by
    intro s hs
    exact ⟨hs.trans (hx.adds s hs).grows, hf _ ⟨_, hx.holds s _ hs (.refl _)⟩⟩
  refine ⟨fun s hs => ?_, fun s q hs hq => ?_⟩
  · obtain ⟨hgrows, hyields⟩ := hnext s hs
    exact (hx.adds s hs).trans (hyields.adds _ hgrows)
  · obtain ⟨hgrows, hyields⟩ := hnext s hs
    have hlater : (x s).2.program.Grows q := (hyields.adds _ hgrows).grows.trans hq
    exact hyields.holds _ q hgrows hq (hx.holds s q hs hlater)

theorem Yields.mono {Q' : Program → α → Prop} (hx : Yields p x Q)
    (h : ∀ q a, p.Grows q → Q q a → Q' q a) :
    Yields p x Q' :=
  ⟨hx.adds, fun s q hs hq => h _ _ ((hs.trans (hx.adds s hs).grows).trans hq) (hx.holds s q hs hq)⟩

theorem Yields.of_advances (hx : Advances x)
    (h : ∀ (s : Resolution) (q : Program), p.Grows s.program → (x s).2.program.Grows q →
      Q q (x s).1) :
    Yields p x Q :=
  ⟨fun s _ => hx.adds s, h⟩

theorem Yields.get : Yields p get fun q s => s.program.Grows q :=
  .of_advances .get fun _ _ _ hq => hq

/-! ## Types and declarations -/

theorem yields_qualifyUse (u : TypeUse) (site : Site) :
    Yields p (qualifyUse u site) fun _ u' => u.Alike u' :=
  .of_advances (advances_qualifyUse u site) fun _ _ _ _ => ⟨rfl, rfl⟩

theorem inferred_inferType (declared : TypeUse) (inferred : Option ErasedType) :
    declared.Inferred (inferType declared inferred) := by
  unfold inferType
  split
  · exact ⟨rfl, .inl ‹_›⟩
  · exact ⟨rfl, .inr rfl⟩

/-- The names in scope where the given variables are, inside what was in scope around the body. -/
def namesIn (outer : Names) (scope : List Local) : Names :=
  scope.map (fun l => (l.name, Declaration.localVar l.node)) ++ outer

theorem yields_declare (head : Anchor) (name : String) (type : TypeUse) (init : Option Expr)
    (outer : Names) (scope : List Local) (site : Site) :
    Yields p (declare head name type init (namesIn outer scope) site) fun _ (l, names) =>
      names = namesIn outer (l :: scope) ∧ ∃ type', l = .mk head name type' init ∧
        type.Alike type' := by
  refine (yields_qualifyUse type site).bind fun type' ⟨_, htype⟩ => ?_
  refine ⟨fun s _ => .refl s.program, fun s q _ _ _ => ?_⟩
  exact ⟨rfl, type', rfl, htype⟩

theorem yields_declareAll (outer : Names) (site : Site) (locals : List Local) (scope : List Local) :
    Yields p (declareAll site locals (namesIn outer scope)) fun _ (locals', names) =>
      names = namesIn outer (locals'.reverse ++ scope) ∧
      List.Forall₂ Local.Retyped locals locals' := by
  induction locals generalizing scope with
  | nil => exact .pure fun _ _ => ⟨rfl, .nil⟩
  | cons l rest ih =>
    obtain ⟨head, name, type, init⟩ := l
    refine (yields_declare head name type init outer scope site).bind fun (l', names) ⟨_, hnames,
      type', hl, htype⟩ => ?_
    subst hnames hl
    refine (ih _).bind fun (rest', names) ⟨_, hnames, hrest⟩ => .pure fun _ _ _ _ => ?_
    subst hnames
    refine ⟨by simp, .cons (.mk head name init htype.inferred) hrest⟩

/-! ## Bodies -/

/-- What is known of the targets that are found from a place: each holds of the spot it is put
into. -/
structure Aims (p : Program) (site : Site) (outer : Names) (P : Program → Spot → Prop) : Prop where
  plain : ∀ (q : Program) (scope : List Local) (e : Expr), e.isTargeted = false → P q ⟨scope, e⟩
  name : ∀ (scope : List Local) (head : Excerpt) (id : String) (qualifier : Option Expr),
    Yields p (nameTarget id qualifier head.text (namesIn outer scope) site) fun q target =>
      P q ⟨scope, .name head id qualifier target⟩
  call : ∀ (scope : List Local) (head : Excerpt) (id : String) (qualifier : Option Expr)
    (args : List Expr),
    Yields p (callTarget id qualifier args.length site) fun q target =>
      P q ⟨scope, .call head id qualifier args target⟩
  create : ∀ (scope : List Local) (head : Excerpt) (type : TypeUse) (args : List Expr)
    (r : Program), p.Grows r →
    ∀ q, r.Grows q → P q ⟨scope, .create head type args (r.findConstructor? type.type args.length)⟩

variable {site : Site} {outer : Names} {P : Program → Spot → Prop}

mutual

theorem yields_expr (aims : Aims p site outer P) (scope : List Local) : (e : Expr) →
    Yields p (expr site (namesIn outer scope) e) fun q e' =>
      e.Alike e' ∧ ∀ spot ∈ e'.spots scope, P q spot
  | .literal head kind => by
    rw [expr]
    refine .pure fun q _ => ⟨.literal head kind, ?_⟩
    simpa [Expr.spots] using aims.plain q scope _ rfl
  | .self head isSuper => by
    rw [expr]
    refine .pure fun q _ => ⟨.self head isSuper, ?_⟩
    simpa [Expr.spots] using aims.plain q scope _ rfl
  | .name head id qualifier target => by
    rw [expr]
    refine (yields_exprOption aims scope qualifier).bind fun qualifier' _ => ?_
    refine (aims.name scope head
      id qualifier').bind fun target' _ => .pure fun q _ htarget hqualifier => ?_
    refine ⟨.name head id target target' hqualifier.1, ?_⟩
    rw [Expr.spots, List.forall_mem_cons]
    exact ⟨htarget, hqualifier.2⟩
  | .call head id qualifier args target => by
    rw [expr]
    refine (yields_exprOption aims scope qualifier).bind fun qualifier' _ => ?_
    refine (yields_exprs aims scope args).bind fun args' _ => ?_
    refine (aims.call scope head id
      qualifier' args').bind fun target' _ => .pure fun q _ htarget hargs hqualifier => ?_
    refine ⟨.call head id target target' hqualifier.1 hargs.1, ?_⟩
    rw [Expr.spots, List.forall_mem_cons, List.forall_mem_append]
    exact ⟨htarget, hqualifier.2, hargs.2⟩
  | .create head type args target => by
    rw [expr]
    refine (yields_qualifyUse type site).bind fun type' ⟨_, htype⟩ => ?_
    refine (yields_exprs aims scope args).bind fun args' _ => ?_
    refine .of_advances (Advances.get.bind fun _ => .pure _) fun s q hs hq hargs _ => ?_
    have hcreate := aims.create scope head type' args' s.program hs q hq
    refine ⟨.create head target _ htype hargs.1, ?_⟩
    change ∀ spot ∈ (Expr.create head type' args' (s.program.findConstructor? type'.type
      args'.length)).spots scope, _
    rw [Expr.spots, List.forall_mem_cons]
    exact ⟨hcreate, hargs.2⟩
  | .paren head inner => by
    rw [expr]
    refine (yields_expr aims scope inner).bind fun inner' _ => .pure fun q _ hinner => ?_
    refine ⟨.paren head hinner.1, ?_⟩
    rw [Expr.spots, List.forall_mem_cons]
    exact ⟨aims.plain q scope _ rfl, hinner.2⟩
  | .unary head op operand isPre => by
    rw [expr]
    refine (yields_expr aims scope operand).bind fun operand' _ => .pure fun q _ hoperand => ?_
    refine ⟨.unary head op isPre hoperand.1, ?_⟩
    rw [Expr.spots, List.forall_mem_cons]
    exact ⟨aims.plain q scope _ rfl, hoperand.2⟩
  | .binary head op left right => by
    rw [expr]
    refine (yields_expr aims scope left).bind fun left' _ => ?_
    refine (yields_expr aims scope right).bind fun right' _ => .pure fun q _ hright hleft => ?_
    refine ⟨.binary head op hleft.1 hright.1, ?_⟩
    rw [Expr.spots, List.forall_mem_cons, List.forall_mem_append]
    exact ⟨aims.plain q scope _ rfl, hleft.2, hright.2⟩
  | .conditional head c t f => by
    rw [expr]
    refine (yields_expr aims scope c).bind fun c' _ => (yields_expr aims scope
      t).bind fun t' _ => ?_
    refine (yields_expr aims scope f).bind fun f' _ => .pure fun q _ hf ht hc => ?_
    refine ⟨.conditional head hc.1 ht.1 hf.1, ?_⟩
    rw [Expr.spots, List.forall_mem_cons, List.forall_mem_append, List.forall_mem_append]
    exact ⟨aims.plain q scope _ rfl, ⟨hc.2, ht.2⟩, hf.2⟩
  | .cast head type operand => by
    rw [expr]
    refine (yields_qualifyUse type site).bind fun type' ⟨_, htype⟩ => ?_
    refine (yields_expr aims scope operand).bind fun operand' _ => .pure fun q _ hoperand _ => ?_
    refine ⟨.cast head htype hoperand.1, ?_⟩
    rw [Expr.spots, List.forall_mem_cons]
    exact ⟨aims.plain q scope _ rfl, hoperand.2⟩
  | .assign head op target value => by
    rw [expr]
    refine (yields_expr aims scope target).bind fun target' _ => ?_
    refine (yields_expr aims scope value).bind fun value' _ => .pure fun q _ hvalue htarget => ?_
    refine ⟨.assign head op htarget.1 hvalue.1, ?_⟩
    rw [Expr.spots, List.forall_mem_cons, List.forall_mem_append]
    exact ⟨aims.plain q scope _ rfl, htarget.2, hvalue.2⟩
  | .index head array position => by
    rw [expr]
    refine (yields_expr aims scope array).bind fun array' _ => ?_
    refine (yields_expr aims
      scope position).bind fun position' _ => .pure fun q _ hposition harray => ?_
    refine ⟨.index head harray.1 hposition.1, ?_⟩
    rw [Expr.spots, List.forall_mem_cons, List.forall_mem_append]
    exact ⟨aims.plain q scope _ rfl, harray.2, hposition.2⟩
  | .newArray head element sizes entries => by
    have helement : Yields p (element.mapM (qualifyUse · site)) fun _ element' =>
        Option.Rel TypeUse.Alike element element' := by
      cases element with
      | none => exact .pure fun _ _ => .none
      | some type =>
          exact (yields_qualifyUse type site).bind fun type' _ => .pure fun _ _ htype => .some htype
    rw [expr]
    refine helement.bind fun element' _ => (yields_exprs aims scope sizes).bind fun sizes' _ => ?_
    refine (yields_exprs aims scope entries).bind fun entries' _ =>
      .pure fun q _ hentries hsizes helement => ?_
    refine ⟨.newArray head helement hsizes.1 hentries.1, ?_⟩
    rw [Expr.spots, List.forall_mem_cons, List.forall_mem_append]
    exact ⟨aims.plain q scope _ rfl, hsizes.2, hentries.2⟩
  | .lambda head params body => by
    rw [expr]
    refine (yields_declareAll outer site params scope).bind fun (params', names) ⟨_, hnames,
      hparams⟩ => ?_
    subst hnames
    refine (yields_stmt aims _ body).bind fun (body', _) _ => .pure fun q _ hbody _ => ?_
    refine ⟨.lambda head hparams hbody.1, ?_⟩
    rw [Expr.spots, List.forall_mem_cons]
    exact ⟨aims.plain q scope _ rfl, hbody.2.1⟩
  | .other head children => by
    rw [expr]
    refine (yields_exprs aims scope children).bind fun children' _ => .pure fun q _ hchildren => ?_
    refine ⟨.other head hchildren.1, ?_⟩
    rw [Expr.spots, List.forall_mem_cons]
    exact ⟨aims.plain q scope _ rfl, hchildren.2⟩
termination_by structural x => x

theorem yields_exprs (aims : Aims p site outer P) (scope : List Local) : (es : List Expr) →
    Yields p (exprs site (namesIn outer scope) es) fun q es' =>
      List.Forall₂ Expr.Alike es es' ∧ ∀ spot ∈ Expr.spotsList scope es', P q spot
  | [] => by
    rw [exprs]
    exact .pure fun q _ => ⟨.nil, by simp [Expr.spotsList]⟩
  | e :: rest => by
    rw [exprs]
    refine (yields_expr aims scope e).bind fun e' _ => ?_
    refine (yields_exprs aims scope rest).bind fun rest' _ => .pure fun q _ hrest he => ?_
    refine ⟨.cons he.1 hrest.1, ?_⟩
    rw [Expr.spotsList, List.forall_mem_append]
    exact ⟨he.2, hrest.2⟩
termination_by structural x => x

theorem yields_exprOption (aims : Aims p site outer P) (scope : List Local) : (e : Option Expr) →
    Yields p (exprOption site (namesIn outer scope) e) fun q e' =>
      Option.Rel Expr.Alike e e' ∧ ∀ spot ∈ Expr.spotsOption scope e', P q spot
  | none => by
    rw [exprOption]
    exact .pure fun q _ => ⟨.none, by simp [Expr.spotsOption]⟩
  | some e => by
    rw [exprOption]
    refine (yields_expr aims scope e).bind fun e' _ => .pure fun q _ he => ⟨.some he.1, ?_⟩
    rw [Expr.spotsOption]
    exact he.2
termination_by structural x => x

/-- **The traversal.** What is known of single targets holds at all spots of the resolved statement,
which is alike the one before, and the names in scope after it are those that it leaves in scope. -/
theorem yields_stmt (aims : Aims p site outer P) (scope : List Local) : (s : Stmt) →
    Yields p (stmt site (namesIn outer scope) s) fun q r =>
      s.Alike r.1 ∧ (∀ spot ∈ r.1.spots scope, P q spot) ∧ r.2 = namesIn outer (r.1.leaves ++ scope)
  | .declare head locals => by
    rw [stmt]
    refine (yields_declared aims scope locals).bind
      fun (locals', names) _ => .pure fun q _ hlocals => ?_
    rw [Stmt.spots, Stmt.leaves]
    exact ⟨.declare head hlocals.1, hlocals.2⟩
  | .eval head e => by
    rw [stmt]
    refine (yields_expr aims scope e).bind fun e' _ => .pure fun q _ he => ?_
    rw [Stmt.spots, Stmt.leaves]
    exact ⟨.eval head he.1, he.2, rfl⟩
  | .raise head e => by
    rw [stmt]
    refine (yields_expr aims scope e).bind fun e' _ => .pure fun q _ he => ?_
    rw [Stmt.spots, Stmt.leaves]
    exact ⟨.raise head he.1, he.2, rfl⟩
  | .block head inner => by
    rw [stmt]
    refine (yields_stmts aims scope inner).bind fun (inner', _) _ => .pure fun q _ hinner => ?_
    rw [Stmt.spots, Stmt.leaves]
    exact ⟨.block head hinner.1, hinner.2.1, rfl⟩
  | .branch head c t f => by
    rw [stmt]
    refine (yields_expr aims scope c).bind
      fun c' _ => (yields_stmt aims scope t).bind fun (t', _) _ => ?_
    refine (yields_stmtOption aims scope f).bind fun (f', _) _ => .pure fun q _ hf ht hc => ?_
    rw [Stmt.spots, Stmt.leaves, List.forall_mem_append, List.forall_mem_append]
    exact ⟨.branch head hc.1 ht.1 hf.1, ⟨⟨hc.2, ht.2.1⟩, hf.2.1⟩, rfl⟩
  | .loop head init c update body => by
    rw [stmt]
    refine (yields_stmts aims scope init).bind fun (init', names) ⟨_, _, _, hnames⟩ => ?_
    obtain rfl : names = namesIn outer (Stmt.leavesList init' ++ scope) := hnames
    refine (yields_exprOption aims _ c).bind fun c' _ => (yields_exprs aims
      _ update).bind fun update' _ => ?_
    refine (yields_stmt aims _ body).bind
      fun (body', _) _ => .pure fun q _ hbody hupdate hc hinit => ?_
    rw [Stmt.spots, Stmt.leaves, List.forall_mem_append, List.forall_mem_append,
      List.forall_mem_append]
    exact ⟨.loop head hinit.1 hc.1 hupdate.1 hbody.1, ⟨⟨⟨hinit.2.1, hc.2⟩,
      hupdate.2⟩, hbody.2.1⟩, rfl⟩
  | .forEach head (.mk itemHead name type init) iterable body => by
    rw [stmt]
    refine (yields_expr aims scope
      iterable).bind fun iterable' _ => Yields.get.bind fun state _ => ?_
    refine (yields_declare itemHead name _ init outer scope site).bind
      fun (item, names) ⟨_, hnames, type', hl, htype⟩ => ?_
    subst hnames hl
    refine (yields_stmt aims _ body).bind fun (body', _)
      _ => .pure fun q _ hbody _ _ hiterable => ?_
    have hitem := (inferred_inferType type _).trans_alike htype
    rw [Stmt.spots, Stmt.leaves, List.forall_mem_append]
    exact ⟨.forEach head
      (.mk itemHead name init hitem) hiterable.1 hbody.1, ⟨hiterable.2, hbody.2.1⟩, rfl⟩
  | .ret head value => by
    rw [stmt]
    refine (yields_exprOption aims scope value).bind fun value' _ => .pure fun q _ hvalue => ?_
    rw [Stmt.spots, Stmt.leaves]
    exact ⟨.ret head hvalue.1, hvalue.2, rfl⟩
  | .attempt head resources body clauses last => by
    rw [stmt]
    refine (yields_stmts aims scope resources).bind fun (resources', names) ⟨_, _, _, hnames⟩ => ?_
    obtain rfl : names = namesIn outer (Stmt.leavesList resources' ++ scope) := hnames
    refine (yields_stmt aims _ body).bind fun (body', _) _ => ?_
    refine (yields_handlers aims scope clauses).bind fun clauses' _ => ?_
    refine (yields_stmtOption aims scope last).bind fun (last', names) _ =>
      .pure fun q _ hlast hclauses hbody hresources => ?_
    rw [Stmt.spots, Stmt.leaves, List.forall_mem_append, List.forall_mem_append,
      List.forall_mem_append]
    exact ⟨.attempt head hresources.1 hbody.1 hclauses.1 hlast.1,
      ⟨⟨⟨hresources.2.1, hbody.2.1⟩, hclauses.2⟩, hlast.2.1⟩, hlast.2.2⟩
  | .assertion head c message => by
    rw [stmt]
    refine (yields_expr aims scope c).bind fun c' _ => ?_
    refine (yields_exprOption aims scope message).bind fun message' _ =>
      .pure fun q _ hmessage hc => ?_
    rw [Stmt.spots, Stmt.leaves, List.forall_mem_append]
    exact ⟨.assertion head hc.1 hmessage.1, ⟨hc.2, hmessage.2⟩, rfl⟩
  | .localClass head id => by
    rw [stmt]
    exact .pure fun q _ => ⟨.localClass head id, by simp [Stmt.spots], by rw [Stmt.leaves]; rfl⟩
  | .other head inner values => by
    rw [stmt]
    refine (yields_exprs aims scope values).bind fun values' _ => ?_
    refine (yields_stmts aims scope inner).bind fun (inner', _)
      _ => .pure fun q _ hinner hvalues => ?_
    rw [Stmt.spots, Stmt.leaves, List.forall_mem_append]
    exact ⟨.other head hinner.1 hvalues.1, ⟨hvalues.2, hinner.2.1⟩, rfl⟩
termination_by structural x => x

theorem yields_stmts (aims : Aims p site outer P) (scope : List Local) : (ss : List Stmt) →
    Yields p (stmts site (namesIn outer scope) ss) fun q r =>
      List.Forall₂ Stmt.Alike ss r.1 ∧ (∀ spot ∈ Stmt.spotsList scope r.1, P q spot) ∧
        r.2 = namesIn outer (Stmt.leavesList r.1 ++ scope)
  | [] => by
    rw [stmts]
    exact .pure fun q _ => ⟨.nil, by simp [Stmt.spotsList], rfl⟩
  | s :: rest => by
    rw [stmts]
    refine (yields_stmt aims scope s).bind fun (s', names) ⟨_, _, _, hnames⟩ => ?_
    obtain rfl : names = namesIn outer (s'.leaves ++ scope) := hnames
    refine (yields_stmts aims _ rest).bind fun (rest', names) _ => .pure fun q _ hrest hs => ?_
    rw [Stmt.spotsList, List.forall_mem_append, Stmt.leavesList, List.append_assoc]
    exact ⟨.cons hs.1 hrest.1, ⟨hs.2.1, hrest.2.1⟩, hrest.2.2⟩
termination_by structural x => x

theorem yields_stmtOption (aims : Aims p site outer P) (scope : List Local) : (s : Option Stmt) →
    Yields p (stmtOption site (namesIn outer scope) s) fun q r =>
      Option.Rel Stmt.Alike s r.1 ∧ (∀ spot ∈ Stmt.spotsOption scope r.1, P q spot) ∧
        r.2 = namesIn outer (Stmt.leavesOption r.1 ++ scope)
  | none => by
    rw [stmtOption]
    exact .pure fun q _ => ⟨.none, by simp [Stmt.spotsOption], by rw [Stmt.leavesOption]; rfl⟩
  | some s => by
    rw [stmtOption]
    refine (yields_stmt aims scope s).bind fun (s', names) _ => .pure fun q _ hs => ?_
    rw [Stmt.spotsOption, Stmt.leavesOption]
    exact ⟨.some hs.1, hs.2⟩
termination_by structural x => x

theorem yields_declared (aims : Aims p site outer P) (scope : List Local) : (locals : List Local) →
    Yields p (declared site (namesIn outer scope) locals) fun q r =>
      List.Forall₂ Local.Alike locals r.1 ∧ (∀ spot ∈ Local.spotsList scope r.1, P q spot) ∧
        r.2 = namesIn outer (r.1.reverse ++ scope)
  | [] => by
    rw [declared]
    exact .pure fun q _ => ⟨.nil, by simp [Local.spotsList], rfl⟩
  | .mk head name type init :: rest => by
    rw [declared]
    refine (yields_exprOption aims scope init).bind fun init' _ => ?_
    refine (Yields.of_advances (Q := fun _ _ => True)
      (advances_typeOfOption init' site) fun _ _ _ _ => trivial).bind
      fun inferred _ => ?_
    refine (yields_declare head name _ init' outer scope site).bind fun (l, names) ⟨_, hnames,
      type', hl, htype⟩ => ?_
    subst hnames hl
    refine (yields_declared aims _ rest).bind fun (rest', names) _ =>
      .pure fun q _ hrest _ _ hinit => ?_
    have hl := (inferred_inferType type inferred).trans_alike htype
    rw [Local.spotsList, List.forall_mem_append, List.reverse_cons, List.append_assoc]
    exact ⟨.cons (.mk head name hl hinit.1) hrest.1, ⟨hinit.2, hrest.2.1⟩, hrest.2.2⟩
termination_by structural x => x

theorem yields_handlers (aims : Aims p site outer P) (scope : List Local) : (hs : List Handler) →
    Yields p (handlers site (namesIn outer scope) hs) fun q hs' =>
      List.Forall₂ Handler.Alike hs hs' ∧ ∀ spot ∈ Handler.spotsList scope hs', P q spot
  | [] => by
    rw [handlers]
    exact .pure fun q _ => ⟨.nil, by simp [Handler.spotsList]⟩
  | .mk (.mk head name type init) body :: rest => by
    rw [handlers]
    refine (yields_declare head name type init outer scope site).bind fun (l, names) ⟨_, hnames,
      type', hl, htype⟩ => ?_
    subst hnames hl
    refine (yields_stmt aims _ body).bind fun (body', _) _ => ?_
    refine (yields_handlers aims scope rest).bind fun rest' _ => .pure fun q _ hrest hbody _ => ?_
    rw [Handler.spotsList, List.forall_mem_append]
    exact ⟨.cons (.mk (.mk head name init htype.inferred) hbody.1) hrest.1, hbody.2.1, hrest.2⟩
termination_by structural x => x

end

theorem aims_trivial (p : Program) (site : Site) (outer : Names) :
    Aims p site outer fun _ _ => True where
  plain := fun _ _ _ _ => trivial
  name := fun _ _ _ _ => .of_advances (advances_nameTarget ..) fun _ _ _ _ => trivial
  call := fun _ _ _ _ _ => .of_advances (advances_callTarget ..) fun _ _ _ _ => trivial
  create := fun _ _ _ _ _ _ _ _ => trivial

theorem adds_stmt (site : Site) (names : Names) (body : Stmt) (s : Resolution) :
    s.program.Adds (stmt site names body s).2.program :=
  (yields_stmt (aims_trivial s.program site names) [] body).adds s (.refl _)

/-! ## The bodies of a program -/

/-- The state after the body of a method has been resolved and put in its place. -/
def putBody (s : Resolution) (m : Method) (body : Stmt) : Resolution :=
  let r := stmt ⟨m.file, m.owner⟩ (parameterNames m) body s
  { r.2 with program := r.2.program.modifyMethod m.id fun m => { m with body := some r.1.1 } }

variable {s : Resolution} {id : MethodId} {m : Method} {body : Stmt}

theorem bind_apply (x : Resolve α) (f : α → Resolve β) (s : Resolution) :
    (x >>= f) s = f (x s).1 (x s).2 := rfl

theorem get_apply (s : Resolution) : (get : Resolve Resolution) s = (s, s) := rfl

theorem methodBody_of_body (hm : s.program.method? id = some m) (hbody : m.body = some body) :
    methodBody id s = ((), putBody s m body) := by
  obtain rfl := Program.id_of_method? hm
  simp only [methodBody, bind_apply, get_apply, hm, hbody]
  rfl

theorem methodBody_of_no_body (h : ∀ m, s.program.method? id = some m → m.body = none) :
    methodBody id s = ((), s) := by
  simp only [methodBody, bind_apply, get_apply]
  cases hm : s.program.method? id with
  | none => rfl
  | some m =>
    simp only [h m hm]
    rfl

theorem resolving_putBody (hm : s.program.method? id = some m) (hbody : m.body = some body) :
    (stmt ⟨m.file, m.owner⟩ (parameterNames m) body s).2.program.Resolving
      (putBody s m body).program := by
  have hlive : (stmt ⟨m.file, m.owner⟩ (parameterNames m) body s).2.program.method? m.id =
      some m := by
    rw [(adds_stmt ..).method? (Program.index_lt_of_method? (Program.method?_self hm))]
    exact Program.method?_self hm
  exact .body hlive (by simp [hbody]) _

theorem resolves_methodBody (id : MethodId) (s : Resolution) :
    s.program.Resolves (methodBody id s).2.program := by
  cases hm : s.program.method? id with
  | none =>
    rw [methodBody_of_no_body (by simp [hm])]
    exact .refl _
  | some m =>
    cases hbody : m.body with
    | none =>
      rw [methodBody_of_no_body (by simp [hm, hbody])]
      exact .refl _
    | some body =>
      rw [methodBody_of_body hm hbody]
      exact (adds_stmt ..).resolves.trans (resolving_putBody hm hbody).resolves

theorem method?_methodBody_self (hm : s.program.method? id = some m) (hbody : m.body = some body) :
    (methodBody id s).2.program.method? id =
      some { m with body := some (stmt ⟨m.file, m.owner⟩ (parameterNames m) body s).1.1 } := by
  have hid := Program.id_of_method? hm
  have hadds := adds_stmt ⟨m.file, m.owner⟩ (parameterNames m) body s
  have hlive := (hadds.method? (Program.index_lt_of_method? hm)).trans hm
  rw [methodBody_of_body hm hbody]
  simp [putBody, Program.method?_modifyMethod, hid, hlive]

theorem method?_methodBody_of_ne {other : MethodId} (hne : other ≠ id)
    (hother : s.program.HasGiven other) :
    (methodBody id s).2.program.method? other = s.program.method? other := by
  cases hm : s.program.method? id with
  | none => rw [methodBody_of_no_body (by simp [hm])]
  | some m =>
    cases hbody : m.body with
    | none => rw [methodBody_of_no_body (by simp [hm, hbody])]
    | some body =>
      have hid := Program.id_of_method? hm
      have hadds := adds_stmt ⟨m.file, m.owner⟩ (parameterNames m) body s
      rw [methodBody_of_body hm hbody, ← hadds.method? hother, putBody,
        Program.method?_modifyMethod, hid]
      simp [hne.symm]

/-! ## One body after another -/

/-- The state after the bodies of some methods have been resolved. -/
def run (ids : List MethodId) (s : Resolution) : Resolution := (ids.forM methodBody s).2

theorem run_cons (id : MethodId) (ids : List MethodId) (s : Resolution) :
    run (id :: ids) s = run ids (methodBody id s).2 := rfl

theorem resolves_run (ids : List MethodId) (s : Resolution) :
    s.program.Resolves (run ids s).program := by
  induction ids generalizing s with
  | nil => exact .refl _
  | cons id rest ih => exact (resolves_methodBody id s).trans (ih _)

theorem method?_run_of_not_mem {ids : List MethodId} {other : MethodId} (hnot : other ∉ ids)
    (hother : s.program.HasGiven other) :
    (run ids s).program.method? other = s.program.method? other := by
  induction ids generalizing s with
  | nil => rfl
  | cons id rest ih =>
    obtain ⟨hne, hrest⟩ := List.ne_and_not_mem_of_not_mem_cons hnot
    have hslots := (resolves_methodBody id s).grows.slots
    rw [run_cons, ih hrest (Nat.lt_of_lt_of_le hother hslots), method?_methodBody_of_ne hne hother]

/-- **The run.** Every method of the list gets the body that the traversal gives at some point of
the run, and keeps it to the end. -/
theorem exists_resolved_body {ids : List MethodId} (hnodup : ids.Nodup) (hid : id ∈ ids)
    (hm : s.program.method? id = some m) (hbody : m.body = some body) :
    ∃ r : Resolution, s.program.Grows r.program ∧
      let resolved := stmt ⟨m.file, m.owner⟩ (parameterNames m) body r
      resolved.2.program.Grows (run ids s).program ∧
        (run ids s).program.method? id = some { m with body := some resolved.1.1 } := by
  induction ids generalizing s with
  | nil => cases hid
  | cons first rest ih =>
    obtain ⟨hfirst, hnodup⟩ := List.nodup_cons.mp hnodup
    have hgiven := Program.index_lt_of_method? hm
    by_cases heq : id = first
    · subst heq
      refine ⟨s, .refl _, ?_, ?_⟩
      · rw [run_cons, methodBody_of_body hm hbody]
        exact (resolving_putBody hm hbody).grows.trans (resolves_run rest _).grows
      · have hslots := (resolves_methodBody id s).grows.slots
        rw [run_cons, method?_run_of_not_mem hfirst (Nat.lt_of_lt_of_le hgiven hslots)]
        exact method?_methodBody_self hm hbody
    · have hrest := (List.mem_cons.mp hid).resolve_left heq
      have hsame := (method?_methodBody_of_ne heq hgiven).trans hm
      obtain ⟨r, hr, hresolved⟩ := ih hnodup hrest hsame
      exact ⟨r, (resolves_methodBody first s).grows.trans hr, hresolved⟩

end Resolve

namespace Program

theorem nodup_resolvable (p : Program) : p.resolvable.Nodup := by
  rw [resolvable, List.Nodup, List.pairwise_map]
  refine (p.pairwise_methods.filter _).imp fun h heq => ?_
  rw [heq] at h
  exact Nat.lt_irrefl _ h

theorem mem_resolvable {p : Program} {id : MethodId} : id ∈ p.resolvable ↔
    ∃ m body, p.method? id = some m ∧ m.body = some body ∧ p.stubFile? ≠ some m.file := by
  simp only [resolvable, List.mem_map, List.mem_filter, Bool.and_eq_true, decide_eq_true_eq]
  constructor
  · rintro ⟨m, ⟨hmem, hfile, hbody⟩, rfl⟩
    obtain ⟨body, hbody⟩ := Option.isSome_iff_exists.mp hbody
    exact ⟨m, body, method?_of_mem_methods hmem, hbody, hfile.symm⟩
  · rintro ⟨m, body, hm, hbody, hfile⟩
    exact ⟨m, ⟨mem_methods_of_method? hm, hfile.symm, by simp [hbody]⟩, id_of_method? hm⟩

/-- **The resolution of a program is a sequence of steps**, once the signatures are qualified. -/
theorem resolves_resolve (p : Program) : p.qualifySignatures.Resolves p.resolve :=
  Resolve.resolves_run p.qualifySignatures.resolvable { program := p.qualifySignatures }

theorem grows_resolve (p : Program) : p.qualifySignatures.Grows p.resolve :=
  p.resolves_resolve.grows

theorem exists_traversal (p : Program) {id : MethodId} (hid : id ∈ p.qualifySignatures.resolvable) :
    ∃ (m : Method) (body : Stmt) (r : Resolution), p.qualifySignatures.method? id = some m ∧
      m.body = some body ∧
      p.qualifySignatures.Grows r.program ∧
      let resolved := Resolve.stmt ⟨m.file, m.owner⟩ (Resolve.parameterNames m) body r
      resolved.2.program.Grows p.resolve ∧
        p.resolve.method? id = some { m with body := some resolved.1.1 } := by
  obtain ⟨m, body, hm, hbody, _⟩ := mem_resolvable.mp hid
  let start : Resolution := { program := p.qualifySignatures }
  obtain ⟨r, hr, hlater, hfound⟩ :=
    Resolve.exists_resolved_body (s := start) p.qualifySignatures.nodup_resolvable hid hm hbody
  exact ⟨m, body, r, hm, hbody, hr, hlater, hfound⟩

theorem method?_resolve_of_not_mem (p : Program) {id : MethodId}
    (hid : id ∉ p.qualifySignatures.resolvable) (hgiven : p.qualifySignatures.HasGiven id) :
    p.resolve.method? id = p.qualifySignatures.method? id :=
  Resolve.method?_run_of_not_mem (s := { program := p.qualifySignatures }) hid hgiven

end Program

end KernelLint
