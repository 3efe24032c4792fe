import KernelLint.Syntax.Walk

/-!
# Scopes

Which local variables can be named where. A variable is in scope from the end of its declaration to
the end of the region around it, and not in its own initializer. The regions are blocks, branches,
loops, protected blocks with their resources, handlers, lambdas and the statements of a switch.
`Stmt.spots` lists the expressions of a statement, each with the variables in scope where it stands.

Nothing is said of an initializer that hangs on the variable of a for-each loop, on a caught
exception or on a parameter of a lambda: the grammar has no place for one.
-/

namespace KernelLint

/-- An expression where it stands, with the local variables in scope there, innermost and latest
first. -/
structure Spot where
  scope : List Local
  expr : Expr

/-- Does the expression carry a target: is it a name, a call or an object creation? -/
def Expr.isTargeted : Expr → Bool
  | .name .. | .call .. | .create .. => true
  | _ => false

mutual

/-- The variables that are in scope after a statement and were not before it, latest first. All
regions but that of a declaration end with the statement; a last block that is no block is part of
the region around it. -/
def Stmt.leaves : Stmt → List Local
  | .declare _ locals => locals.reverse
  | .attempt _ _ _ _ last => Stmt.leavesOption last
  | .eval .. | .block .. | .branch .. | .loop .. | .forEach .. | .ret .. | .raise ..
  | .assertion .. | .localClass ..
  | .other .. => []

/-- The variables that are in scope after a statement that may be absent. -/
def Stmt.leavesOption : Option Stmt → List Local
  | none => []
  | some s => s.leaves

end

/-- The variables that are in scope after statements one after another. -/
def Stmt.leavesList : List Stmt → List Local
  | [] => []
  | s :: rest => Stmt.leavesList rest ++ s.leaves

mutual

/-- The spots of an expression. -/
def Expr.spots (scope : List Local) : Expr → List Spot
  | e@(.literal ..) => [⟨scope, e⟩]
  | e@(.self ..) => [⟨scope, e⟩]
  | e@(.name _ _ qualifier _) => ⟨scope, e⟩ :: Expr.spotsOption scope qualifier
  | e@(.call _ _ qualifier args _) =>
    ⟨scope, e⟩ :: (Expr.spotsOption scope qualifier ++ Expr.spotsList scope args)
  | e@(.create _ _ args _) => ⟨scope, e⟩ :: Expr.spotsList scope args
  | e@(.paren _ inner) => ⟨scope, e⟩ :: inner.spots scope
  | e@(.unary _ _ operand _) => ⟨scope, e⟩ :: operand.spots scope
  | e@(.binary _ _ left right) => ⟨scope, e⟩ :: (left.spots scope ++ right.spots scope)
  | e@(.conditional _ c t f) => ⟨scope, e⟩ :: (c.spots scope ++ t.spots scope ++ f.spots scope)
  | e@(.cast _ _ operand) => ⟨scope, e⟩ :: operand.spots scope
  | e@(.assign _ _ target value) => ⟨scope, e⟩ :: (target.spots scope ++ value.spots scope)
  | e@(.index _ array position) => ⟨scope, e⟩ :: (array.spots scope ++ position.spots scope)
  | e@(.newArray _ _ sizes entries) =>
    ⟨scope, e⟩ :: (Expr.spotsList scope sizes ++ Expr.spotsList scope entries)
  | e@(.lambda _ params body) => ⟨scope, e⟩ :: body.spots (params.reverse ++ scope)
  | e@(.other _ children) => ⟨scope, e⟩ :: Expr.spotsList scope children

def Expr.spotsOption (scope : List Local) : Option Expr → List Spot
  | none => []
  | some e => e.spots scope

def Expr.spotsList (scope : List Local) : List Expr → List Spot
  | [] => []
  | e :: es => e.spots scope ++ Expr.spotsList scope es

/-- The spots of a statement. -/
def Stmt.spots (scope : List Local) : Stmt → List Spot
  | .declare _ locals => Local.spotsList scope locals
  | .eval _ e => e.spots scope
  | .block _ stmts => Stmt.spotsList scope stmts
  | .branch _ c t f => c.spots scope ++ t.spots scope ++ Stmt.spotsOption scope f
  | .loop _ init c update body =>
    let inner := Stmt.leavesList init ++ scope
    Stmt.spotsList scope init ++ Expr.spotsOption inner c ++ Expr.spotsList inner update ++
      body.spots inner
  | .forEach _ item iterable body => iterable.spots scope ++ body.spots (item :: scope)
  | .ret _ value => Expr.spotsOption scope value
  | .raise _ value => value.spots scope
  | .attempt _ resources body handlers last =>
    Stmt.spotsList scope resources ++ body.spots (Stmt.leavesList resources ++ scope)
      ++ Handler.spotsList scope handlers ++ Stmt.spotsOption scope last
  | .assertion _ c message => c.spots scope ++ Expr.spotsOption scope message
  | .localClass .. => []
  | .other _ stmts exprs => Expr.spotsList scope exprs ++ Stmt.spotsList scope stmts

def Stmt.spotsOption (scope : List Local) : Option Stmt → List Spot
  | none => []
  | some s => s.spots scope

/-- The spots of statements one after another: what a statement declares is in scope in all that
follow. -/
def Stmt.spotsList (scope : List Local) : List Stmt → List Spot
  | [] => []
  | s :: ss => s.spots scope ++ Stmt.spotsList (s.leaves ++ scope) ss

/-- The spots of declared variables one after another: each is in scope in the initializers after
its own. -/
def Local.spotsList (scope : List Local) : List Local → List Spot
  | [] => []
  | l@(.mk _ _ _ init) :: ls => Expr.spotsOption scope init ++ Local.spotsList (l :: scope) ls

/-- The spots of handlers: in each of them its own exception is in scope. -/
def Handler.spotsList (scope : List Local) : List Handler → List Spot
  | [] => []
  | .mk param body :: hs => body.spots (param :: scope) ++ Handler.spotsList scope hs

end

/-! ## Spots and the walk -/

/-- No initializer hangs on the variable of a for-each loop, on a caught exception or on a parameter
of a lambda. -/
def Visit.isBare : Visit → Bool
  | .stmt (.forEach _ item _ _) => item.init.isNone
  | .stmt (.attempt _ _ _ handlers _) => handlers.all (·.param.init.isNone)
  | .expr (.lambda _ params _) => params.all (·.init.isNone)
  | _ => true

/-- How spots go with a walk. The variables in scope at a spot were in scope before or are met on
the walk, and an expression that is met has a spot, provided that no initializer is out of place;
`given` is what the walk itself does not show of that. -/
structure Charts (given : Prop) (scope : List Local) (visits : List Visit) (spots : List Spot) :
    Prop where
  known : ∀ spot ∈ spots, ∀ l ∈ spot.scope, l ∈ scope ∨ Visit.localVar l ∈ visits
  covered : given → (∀ v ∈ visits, v.isBare = true) → ∀ e, Visit.expr e ∈ visits →
    ∃ inner, ⟨inner, e⟩ ∈ spots

namespace Charts

variable {given given' : Prop} {scope : List Local} {visits visits' : List Visit}
    {spots spots' : List Spot}

theorem nil : Charts True scope [] [] := ⟨by simp, by simp⟩

theorem weaken (h : Charts given scope visits spots) (hgiven : given' → given) :
    Charts given' scope visits spots :=
  ⟨h.known, fun h' => h.covered (hgiven h')⟩

theorem seq (h : Charts given scope visits spots) (extra : List Local)
    (h' : Charts given' (extra ++ scope) visits' spots')
    (hextra : ∀ l ∈ extra, Visit.localVar l ∈ visits) :
    Charts (given ∧ given') scope (visits ++ visits') (spots ++ spots') where
  known := by
    intro spot hspot l hl
    have hfirst := h.known spot
    have hsecond := h'.known spot
    grind
  covered := by
    rintro ⟨hg, hg'⟩ hbare e he
    have hfirst := h.covered hg (fun v hv => hbare v (List.mem_append_left _ hv)) e
    have hsecond := h'.covered hg' (fun v hv => hbare v (List.mem_append_right _ hv)) e
    grind

theorem append (h : Charts given scope visits spots) (h' : Charts given' scope visits' spots') :
    Charts (given ∧ given') scope (visits ++ visits') (spots ++ spots') :=
  h.seq [] h' (by simp)

theorem expr (h : Charts given scope visits spots) {e : Expr}
    (hgiven : (Visit.expr e).isBare = true → given) :
    Charts True scope (.expr e :: visits) (⟨scope, e⟩ :: spots) where
  known := by
    intro spot hspot l hl
    have hinner := h.known spot
    grind
  covered := by
    intro _ hbare x hx
    have hinner := h.covered (hgiven (hbare _ (by simp)))
      (fun v hv => hbare v (List.mem_cons_of_mem _ hv)) x
    grind

theorem stmt (h : Charts given scope visits spots) {s : Stmt}
    (hgiven : (Visit.stmt s).isBare = true → given) :
    Charts True scope (.stmt s :: visits) spots where
  known := by
    intro spot hspot l hl
    have hinner := h.known spot
    grind
  covered := by
    intro _ hbare x hx
    have hinner := h.covered (hgiven (hbare _ (by simp)))
      (fun v hv => hbare v (List.mem_cons_of_mem _ hv)) x
    grind

end Charts

theorem Local.mem_visits (l : Local) : Visit.localVar l ∈ l.visits := by
  obtain ⟨head, name, type, init⟩ := l
  simp [Local.visits]

theorem Local.mem_visitsList (ls : List Local) :
    ∀ l ∈ ls, Visit.localVar l ∈ Local.visitsList ls := by
  intro l hl
  induction ls with
  | nil => cases hl
  | cons x rest ih =>
    rw [Local.visitsList, List.mem_append]
    rcases List.mem_cons.mp hl with rfl | hl
    · exact .inl l.mem_visits
    · exact .inr (ih hl)

theorem Local.charts_bare (scope : List Local) (l : Local) :
    Charts (l.init.isNone = true) scope l.visits [] where
  known := by simp
  covered := by
    intro hbare _ e he
    obtain ⟨head, name, type, init⟩ := l
    obtain rfl : init = none := by simpa [Local.init] using hbare
    simp [Local.visits, Expr.visitsOption] at he

theorem Local.charts_bareList (scope : List Local) (ls : List Local) :
    Charts (ls.all (·.init.isNone) = true) scope (Local.visitsList ls) [] := by
  induction ls with
  | nil => exact Charts.nil.weaken fun _ => trivial
  | cons l rest ih => exact ((l.charts_bare scope).append ih).weaken (by simp)

mutual

theorem Stmt.localVar_mem_of_leaves : (s : Stmt) → ∀ l ∈ s.leaves, Visit.localVar l ∈ s.visits
  | .declare _ locals => by
    intro l hl
    rw [Stmt.leaves, List.mem_reverse] at hl
    rw [Stmt.visits]
    exact List.mem_cons_of_mem _ (Local.mem_visitsList locals l hl)
  | .attempt _ _ _ _ last => by
    have hlast := Stmt.localVar_mem_of_leavesOption last
    rw [Stmt.leaves, Stmt.visits]
    grind
  | .eval .. | .block .. | .branch .. | .loop .. | .forEach .. | .ret .. | .raise ..
  | .assertion .. | .localClass ..
  | .other .. => by simp [Stmt.leaves]
termination_by structural x => x

theorem Stmt.localVar_mem_of_leavesOption :
    (s : Option Stmt) → ∀ l ∈ Stmt.leavesOption s, Visit.localVar l ∈ Stmt.visitsOption s
  | none => by simp [Stmt.leavesOption]
  | some s => by
    rw [Stmt.leavesOption, Stmt.visitsOption]
    exact Stmt.localVar_mem_of_leaves s
termination_by structural x => x

end

theorem Stmt.localVar_mem_of_leavesList (ss : List Stmt) :
    ∀ l ∈ Stmt.leavesList ss, Visit.localVar l ∈ Stmt.visitsList ss := by
  intro l hl
  induction ss with
  | nil => cases hl
  | cons s rest ih =>
    rw [Stmt.leavesList, List.mem_append] at hl
    rw [Stmt.visitsList, List.mem_append]
    rcases hl with hl | hl
    · exact .inr (ih hl)
    · exact .inl (s.localVar_mem_of_leaves l hl)

mutual

theorem Expr.charts (scope : List Local) : (e : Expr) → Charts True scope e.visits (e.spots scope)
  | .literal .. => by
    rw [Expr.visits, Expr.spots]
    exact Charts.nil.expr fun _ => trivial
  | .self .. => by
    rw [Expr.visits, Expr.spots]
    exact Charts.nil.expr fun _ => trivial
  | .name _ _ qualifier _ => by
    rw [Expr.visits, Expr.spots]
    exact (Expr.chartsOption scope qualifier).expr fun _ => trivial
  | .call _ _ qualifier args _ => by
    rw [Expr.visits, Expr.spots]
    exact ((Expr.chartsOption scope qualifier).append (Expr.chartsList scope args)).expr (by simp)
  | .create _ _ args _ => by
    rw [Expr.visits, Expr.spots]
    exact (Expr.chartsList scope args).expr fun _ => trivial
  | .paren _ inner => by
    rw [Expr.visits, Expr.spots]
    exact (inner.charts scope).expr fun _ => trivial
  | .unary _ _ operand _ => by
    rw [Expr.visits, Expr.spots]
    exact (operand.charts scope).expr fun _ => trivial
  | .binary _ _ left right => by
    rw [Expr.visits, Expr.spots]
    exact ((left.charts scope).append (right.charts scope)).expr (by simp)
  | .conditional _ c t f => by
    rw [Expr.visits, Expr.spots]
    exact (((c.charts scope).append (t.charts scope)).append (f.charts scope)).expr (by simp)
  | .cast _ _ operand => by
    rw [Expr.visits, Expr.spots]
    exact (operand.charts scope).expr fun _ => trivial
  | .assign _ _ target value => by
    rw [Expr.visits, Expr.spots]
    exact ((target.charts scope).append (value.charts scope)).expr (by simp)
  | .index _ array position => by
    rw [Expr.visits, Expr.spots]
    exact ((array.charts scope).append (position.charts scope)).expr (by simp)
  | .newArray _ _ sizes entries => by
    rw [Expr.visits, Expr.spots]
    exact ((Expr.chartsList scope sizes).append (Expr.chartsList scope entries)).expr (by simp)
  | .lambda _ params body => by
    have hextra : ∀ l ∈ params.reverse, Visit.localVar l ∈ Local.visitsList params := by
      simpa using Local.mem_visitsList params
    rw [Expr.visits, Expr.spots]
    exact ((Local.charts_bareList scope params).seq _ (body.charts _) hextra).expr
      (by simp [Visit.isBare])
  | .other _ children => by
    rw [Expr.visits, Expr.spots]
    exact (Expr.chartsList scope children).expr fun _ => trivial
termination_by structural x => x

theorem Expr.chartsOption (scope : List Local) :
    (e : Option Expr) → Charts True scope (Expr.visitsOption e) (Expr.spotsOption scope e)
  | none => by
    rw [Expr.visitsOption, Expr.spotsOption]
    exact .nil
  | some e => by
    rw [Expr.visitsOption, Expr.spotsOption]
    exact e.charts scope
termination_by structural x => x

theorem Expr.chartsList (scope : List Local) :
    (es : List Expr) → Charts True scope (Expr.visitsList es) (Expr.spotsList scope es)
  | [] => by
    rw [Expr.visitsList, Expr.spotsList]
    exact .nil
  | e :: rest => by
    rw [Expr.visitsList, Expr.spotsList]
    exact ((e.charts scope).append (Expr.chartsList scope rest)).weaken (by simp)
termination_by structural x => x

theorem Stmt.charts (scope : List Local) : (s : Stmt) → Charts True scope s.visits (s.spots scope)
  | .declare _ locals => by
    rw [Stmt.visits, Stmt.spots]
    exact (Local.chartsList scope locals).stmt fun _ => trivial
  | .eval _ e => by
    rw [Stmt.visits, Stmt.spots]
    exact (e.charts scope).stmt fun _ => trivial
  | .block _ stmts => by
    rw [Stmt.visits, Stmt.spots]
    exact (Stmt.chartsList scope stmts).stmt fun _ => trivial
  | .branch _ c t f => by
    rw [Stmt.visits, Stmt.spots]
    exact (((c.charts scope).append (t.charts scope)).append (Stmt.chartsOption scope f)).stmt
      (by simp)
  | .loop _ init c update body => by
    have hextra := Stmt.localVar_mem_of_leavesList init
    rw [Stmt.visits, Stmt.spots]
    refine ((((Stmt.chartsList scope init).seq _ (Expr.chartsOption _ c) hextra).seq _
      (Expr.chartsList _ update) ?_).seq
      _ (body.charts _) ?_).stmt (by simp)
    · exact fun l hl => List.mem_append_left _ (hextra l hl)
    · exact fun l hl => List.mem_append_left _ (List.mem_append_left _ (hextra l hl))
  | .forEach _ item iterable body => by
    rw [Stmt.visits, Stmt.spots]
    refine (((item.charts_bare scope).append (iterable.charts scope)).seq [item]
      (body.charts _) ?_).stmt
      (by simp [Visit.isBare])
    intro l hl
    obtain rfl := List.mem_singleton.mp hl
    exact List.mem_append_left _ l.mem_visits
  | .ret _ value => by
    rw [Stmt.visits, Stmt.spots]
    exact (Expr.chartsOption scope value).stmt fun _ => trivial
  | .raise _ value => by
    rw [Stmt.visits, Stmt.spots]
    exact (value.charts scope).stmt fun _ => trivial
  | .attempt _ resources body handlers last => by
    have hextra := Stmt.localVar_mem_of_leavesList resources
    rw [Stmt.visits, Stmt.spots]
    exact ((((Stmt.chartsList scope resources).seq _ (body.charts _) hextra).append
      (Handler.chartsList scope handlers)).append (Stmt.chartsOption scope last)).stmt
        (by simp [Visit.isBare])
  | .assertion _ c message => by
    rw [Stmt.visits, Stmt.spots]
    exact ((c.charts scope).append (Expr.chartsOption scope message)).stmt (by simp)
  | .localClass .. => by
    rw [Stmt.visits, Stmt.spots]
    exact ⟨by simp, by simp⟩
  | .other _ stmts exprs => by
    rw [Stmt.visits, Stmt.spots]
    exact ((Expr.chartsList scope exprs).append (Stmt.chartsList scope stmts)).stmt (by simp)
termination_by structural x => x

theorem Stmt.chartsOption (scope : List Local) :
    (s : Option Stmt) → Charts True scope (Stmt.visitsOption s) (Stmt.spotsOption scope s)
  | none => by
    rw [Stmt.visitsOption, Stmt.spotsOption]
    exact .nil
  | some s => by
    rw [Stmt.visitsOption, Stmt.spotsOption]
    exact s.charts scope
termination_by structural x => x

theorem Stmt.chartsList (scope : List Local) :
    (ss : List Stmt) → Charts True scope (Stmt.visitsList ss) (Stmt.spotsList scope ss)
  | [] => by
    rw [Stmt.visitsList, Stmt.spotsList]
    exact .nil
  | s :: rest => by
    rw [Stmt.visitsList, Stmt.spotsList]
    exact ((s.charts scope).seq _ (Stmt.chartsList _ rest) s.localVar_mem_of_leaves).weaken
      (by simp)
termination_by structural x => x

theorem Local.chartsList (scope : List Local) :
    (ls : List Local) → Charts True scope (Local.visitsList ls) (Local.spotsList scope ls)
  | [] => by
    rw [Local.visitsList, Local.spotsList]
    exact .nil
  | .mk head name type init :: rest => by
    have hinit : Charts True scope (Local.visits (.mk head name type init))
        (Expr.spotsOption scope init) := by
      have h := Expr.chartsOption scope init
      rw [Local.visits]
      exact ⟨fun spot hspot l hl => (h.known spot hspot l hl).imp_right (List.mem_cons_of_mem _),
        fun _ hbare e he => h.covered trivial (fun v hv => hbare v (List.mem_cons_of_mem _ hv)) e
          (by simpa using he)⟩
    rw [Local.visitsList, Local.spotsList]
    refine (hinit.seq [.mk head name type init] (Local.chartsList _ rest) ?_).weaken (by simp)
    intro l hl
    obtain rfl := List.mem_singleton.mp hl
    exact Local.mem_visits _
termination_by structural x => x

theorem Handler.chartsList (scope : List Local) : (hs : List Handler) →
    Charts (hs.all (·.param.init.isNone) = true) scope (Handler.visitsList hs)
      (Handler.spotsList scope hs)
  | [] => by
    rw [Handler.visitsList, Handler.spotsList]
    exact Charts.nil.weaken fun _ => trivial
  | .mk param body :: rest => by
    rw [Handler.visitsList, Handler.visits, Handler.spotsList]
    refine (((param.charts_bare scope).seq [param] (body.charts _) ?_).append
      (Handler.chartsList scope rest)).weaken (by simp [Handler.param])
    intro l hl
    obtain rfl := List.mem_singleton.mp hl
    exact l.mem_visits
termination_by structural x => x

end

end KernelLint
