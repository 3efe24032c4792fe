import KernelLint.Java.Unit
import KernelLint.Proofs.Program.Grounded
import KernelLint.Proofs.Program.Housed
import KernelLint.Proofs.Program.OuterFirst
import KernelLint.Proofs.Program.Tidy
import KernelLint.Proofs.Text.Segments

/-!
# Reading syntax trees

Whatever a syntax tree contains, the classes, methods and fields that are read from it refer to the
file at hand, to the class around them and to nothing else; every variable gets a node that was
never given before, no initializer stands where none belongs, and a class in a body stands inside
the class around the body. So programs that are read are grounded, tidy and housed, and enclosing
classes come first in them. `Reads` says that a computation of the reader keeps this, and what it
answers in terms of the programs before and after it. The step from the reader of smaller trees to
that of larger ones is done for each rule of the reader; the height of the tree then carries the
induction.
-/

namespace KernelLint

namespace Java

/-- The second program has no fewer files, classes and nodes, and the classes of the first one. -/
structure NoFewer (p q : Program) : Prop where
  files : p.files.size ≤ q.files.size
  classes : p.classes.size ≤ q.classes.size
  nodes : p.nodeCount ≤ q.nodeCount
  kept : p.KeepsClasses q

theorem NoFewer.refl (p : Program) : NoFewer p p :=
  ⟨Nat.le_refl _, Nat.le_refl _, Nat.le_refl _, .refl p⟩

theorem NoFewer.trans {p q r : Program} (h : NoFewer p q) (h' : NoFewer q r) : NoFewer p r :=
  ⟨Nat.le_trans h.files h'.files, Nat.le_trans h.classes h'.classes, Nat.le_trans h.nodes h'.nodes,
    h.kept.trans h'.kept⟩

/-- The program has the file, and the class if one is given. -/
structure Around (file : FileId) (outer : Option ClassId) (p : Program) : Prop where
  file : file.index < p.files.size
  outer : ∀ o ∈ outer, o.index < p.classes.size

theorem Around.later {file : FileId} {outer : Option ClassId} {p q : Program}
    (h : Around file outer p) (hmore : NoFewer p q) : Around file outer q :=
  ⟨Nat.lt_of_lt_of_le h.file hmore.files,
    fun o ho => Nat.lt_of_lt_of_le (h.outer o ho) hmore.classes⟩

/-- What is read inside a class, between two programs: a tidy walk over fresh nodes, whose classes
stand inside that class. -/
structure Gathered (outer : Option ClassId) (p q : Program) (visits : List Visit) : Prop where
  more : NoFewer p q
  fresh : Fresh p.nodeCount q.nodeCount visits
  housed : ∀ id, Visit.localClass id ∈ visits → q.Houses outer id

namespace Gathered

variable {outer : Option ClassId} {lo mid hi : Program} {visits visits' : List Visit}

theorem nil (h : NoFewer lo hi) : Gathered outer lo hi [] := ⟨h, .nil h.nodes, by simp⟩

theorem widen (h : Gathered outer mid hi visits) {hi' : Program} (hlo : NoFewer lo mid)
    (hhi : NoFewer hi hi') :
    Gathered outer lo hi' visits :=
  ⟨(hlo.trans h.more).trans hhi, h.fresh.widen hlo.nodes hhi.nodes,
    fun id hid => (h.housed id hid).later hhi.kept⟩

theorem append (h : Gathered outer lo mid visits) (h' : Gathered outer mid hi visits') :
    Gathered outer lo hi (visits ++ visits') := by
  refine ⟨h.more.trans h'.more, h.fresh.append h'.fresh, fun id hid => ?_⟩
  rcases List.mem_append.mp hid with hid | hid
  · exact (h.housed id hid).later h'.more.kept
  · exact h'.housed id hid

theorem swap (h : Gathered outer lo hi (visits ++ visits')) :
    Gathered outer lo hi (visits' ++ visits) := by
  refine ⟨h.more, h.fresh.swap, fun id hid => h.housed id ?_⟩
  rw [List.mem_append, or_comm, ← List.mem_append]
  exact hid

theorem cons (h : Gathered outer lo hi visits) {v : Visit} (hv : v.gist = (none, true, none)) :
    Gathered outer lo hi (v :: visits) := by
  refine ⟨h.more, h.fresh.cons (congrArg (·.1) hv) (congrArg (·.2.1) hv), fun id hid => ?_⟩
  rcases List.mem_cons.mp hid with rfl | hid
  · cases hv
  · exact h.housed id hid

theorem consLocal (h : Gathered outer lo mid visits) (hmore : NoFewer mid hi) {l : Local}
    (hlo : mid.nodeCount ≤ l.node.index) (hhi : l.node.index < hi.nodeCount) :
    Gathered outer lo hi (.localVar l :: visits) := by
  refine ⟨h.more.trans hmore, h.fresh.consLocal hlo hhi, fun id hid => ?_⟩
  rcases List.mem_cons.mp hid with heq | hid
  · cases heq
  · exact (h.housed id hid).later hmore.kept

end Gathered

/-- The computation keeps a program grounded, tidy and housed and its enclosing classes first, and
takes nothing away from it. -/
structure Keeps {α : Type} (x : Build α) (p : Program) : Prop where
  grounded : p.Grounded → (x p).2.Grounded
  tidy : p.Tidy → (x p).2.Tidy
  housed : p.Housed → (x p).2.Housed
  outerFirst : p.OuterFirst → (x p).2.OuterFirst
  more : NoFewer p (x p).2

/-- Inside a file and perhaps a class, the computation keeps programs as they should be, and what it
answers satisfies `Q` with the programs before and after it. -/
structure Reads {α : Type} (file : FileId) (outer : Option ClassId) (x : Build α)
    (Q : Program → Program → α → Prop) :
    Prop where
  keeps : ∀ p : Program, Around file outer p → Keeps x p
  holds : ∀ p : Program, Around file outer p → Q p (x p).2 (x p).1

/-- The computation answers something with a walk that is gathered. -/
abbrev Gathers {α : Type} (file : FileId) (outer : Option ClassId) (x : Build α)
    (walk : α → List Visit) : Prop :=
  Reads file outer x fun lo hi a => Gathered outer lo hi (walk a)

section

variable {α β : Type} {x : Build α} {f : α → Build β} {p : Program}

theorem Keeps.pure (a : α) : Keeps (pure a) p :=
  ⟨fun hp => hp, fun hp => hp, fun hp => hp, fun hp => hp, .refl p⟩

theorem Keeps.bind (hx : Keeps x p) (hf : Keeps (f (x p).1) (x p).2) : Keeps (x >>= f) p :=
  ⟨fun hp => hf.grounded (hx.grounded hp), fun hp => hf.tidy (hx.tidy hp),
    fun hp => hf.housed (hx.housed hp), fun hp => hf.outerFirst (hx.outerFirst hp),
    hx.more.trans hf.more⟩

end

variable {file : FileId} {outer : Option ClassId}

namespace Reads

variable {α β : Type} {x : Build α} {f : α → Build β} {Q Q' : Program → Program → α → Prop}
  {R : Program → Program → β → Prop}

theorem later (hx : Reads file outer x Q) {p : Program} (hp : Around file outer p) :
    Around file outer (x p).2 :=
  hp.later (hx.keeps p hp).more

theorem pure {a : α} (h : ∀ p, Q p p a) :
    Reads file outer (pure a) Q := ⟨fun _ _ => .pure a, fun p _ => h p⟩

theorem bind (hx : Reads file outer x Q)
    (hf : ∀ a, Reads file outer (f a) fun mid hi b => ∀ lo, NoFewer lo mid → Q lo mid a →
      R lo hi b) :
    Reads file outer (x >>= f) R where
  keeps p hp := (hx.keeps p hp).bind ((hf _).keeps _ (hx.later hp))
  holds p hp := (hf _).holds _ (hx.later hp) p (hx.keeps p hp).more (hx.holds p hp)

theorem bindKept (hx : Reads file outer x Q)
    (hf : ∀ lo p a, Around file outer p → Q lo p a → Keeps (f a) p) :
    Reads file outer (x >>= f) fun _ _ _ => True where
  keeps p hp := (hx.keeps p hp).bind (hf p _ _ (hx.later hp) (hx.holds p hp))
  holds _ _ := trivial

theorem mono (hx : Reads file outer x Q) (h : ∀ lo hi a, NoFewer lo hi → Q lo hi a → Q' lo hi a) :
    Reads file outer x Q' :=
  ⟨hx.keeps, fun p hp => h _ _ _ (hx.keeps p hp).more (hx.holds p hp)⟩

theorem any (hx : Reads file outer x Q) : Reads file outer x fun _ _ _ => True :=
  hx.mono fun _ _ _ _ _ => trivial

theorem get : Reads file outer MonadState.get fun lo _ p => p = lo ∧ Around file outer p :=
  ⟨fun p _ => ⟨fun hp => hp, fun hp => hp, fun hp => hp, fun hp => hp, .refl p⟩,
    fun _ hp => ⟨rfl, hp⟩⟩

theorem mapM {g : α → Build β} {walk : β → List Visit} {good : β → Prop}
    (hg : ∀ a, Reads file outer (g a) fun lo hi b => Gathered outer lo hi (walk b) ∧ good b)
    (as : List α) :
    Reads file outer (as.mapM g) fun lo hi bs =>
      Gathered outer lo hi (bs.flatMap walk) ∧ ∀ b ∈ bs, good b := by
  induction as with
  | nil => exact .pure fun n => ⟨.nil (.refl n), nofun⟩
  | cons a rest ih =>
    rw [List.mapM_cons]
    refine (hg a).bind fun b => ih.bind fun bs => .pure fun n mid hmid hbs lo hlo hb => ?_
    rw [List.flatMap_cons, List.forall_mem_cons]
    exact ⟨hb.1.append hbs.1, hb.2, hbs.2⟩

theorem mapGathers {g : α → Build β} {walk : β → List Visit}
    (hg : ∀ a, Gathers file outer (g a) walk) (as : List α) :
    Gathers file outer (as.mapM g) fun bs => bs.flatMap walk := by
  have hgood : ∀ a, Reads file outer (g a) fun lo hi b => Gathered outer lo hi (walk b) ∧ True :=
    fun a =>
    (hg a).mono fun _ _ _ _ hb => ⟨hb, trivial⟩
  exact (mapM hgood as).mono fun _ _ _ _ hbs => hbs.1

theorem forM {g : α → Build PUnit} (hg : ∀ a, Reads file outer (g a) fun _ _ _ => True)
    (as : List α) :
    Reads file outer (as.forM g) fun _ _ _ => True := by
  induction as with
  | nil => exact .pure fun _ => trivial
  | cons a rest ih => exact (hg a).bind fun _ => ih.mono fun _ _ _ _ _ _ _ _ => trivial

theorem mapOption {g : α → Build β} {walk : β → List Visit} {walkOption : Option β → List Visit}
    (hnone : walkOption none = []) (hsome : ∀ b, walkOption (some b) = walk b)
    (hg : ∀ a, Gathers file outer (g a) walk) (a : Option α) :
    Gathers file outer (a.mapM g) walkOption := by
  cases a with
  | none =>
    refine .pure fun n => ?_
    rw [hnone]
    exact .nil (.refl n)
  | some a =>
    refine (hg a).bind fun b => .pure fun n lo _ hb => ?_
    rw [hsome]
    exact hb

end Reads

/-! ## Signatures -/

theorem reads_anchorAt (span : Span) : Reads file outer (anchorAt span) fun lo hi a =>
    lo.nodeCount ≤ a.node.index ∧ a.node.index < hi.nodeCount := by
  have hmore : ∀ p : Program, NoFewer p p.freshNode.2 := fun p =>
    ⟨Nat.le_refl _, Nat.le_refl _, Nat.le_succ p.nodeCount, .of_classes rfl⟩
  refine ⟨fun p _ => ⟨fun hp => hp.freshNode, fun hp => hp.of_methodSlots rfl, fun hp => ?_,
    fun hp => hp, hmore p⟩, fun p _ => ?_⟩
  · exact hp.of_methodSlots (hmore p).kept rfl
  · exact ⟨Nat.le_refl _, Nat.lt_succ_self p.nodeCount⟩

theorem reads_anchorOf (t : Tree) : Reads file outer (anchorOf t) fun lo hi a =>
    lo.nodeCount ≤ a.node.index ∧ a.node.index < hi.nodeCount :=
  reads_anchorAt _

theorem reads_excerptOf (t : Tree) : Reads file outer (excerptOf t) fun _ _ _ => True :=
  (reads_anchorOf t).bind fun _ => .pure fun _ _ _ _ => trivial

theorem reads_typeUseOf (t : Tree) : Reads file outer (typeUseOf t) fun _ _ _ => True :=
  (reads_anchorOf t).bind fun _ => .pure fun _ _ _ _ => trivial

theorem reads_unknownTypeAt (span : Span) :
    Reads file outer (unknownTypeAt span) fun _ _ _ => True :=
  (reads_anchorAt span).bind fun _ => .pure fun _ _ _ _ => trivial

theorem reads_typeUseOrUnknown (type : Option Tree) (parent : Tree) :
    Reads file outer (typeUseOrUnknown type parent) fun _ _ _ => True := by
  cases type with
  | none => exact reads_unknownTypeAt _
  | some t => exact reads_typeUseOf t

theorem reads_parameterOf (t : Tree) : Reads file outer (parameterOf t) fun _ _ _ => True := by
  have hspread : Reads file outer (spreadOf t) fun _ _ _ => True :=
    (reads_typeUseOrUnknown _ t).bind fun _ => .pure fun _ _ _ _ => trivial
  unfold parameterOf
  split
  · exact hspread.bind fun _ => .pure fun _ _ _ _ => trivial
  · exact (reads_typeUseOrUnknown _ t).bind fun _ => .pure fun _ _ _ _ => trivial

theorem Reads.mapAny {α β : Type} {g : α → Build β}
    (hg : ∀ a, Reads file outer (g a) fun _ _ _ => True) (as : List α) :
    Reads file outer (as.mapM g) fun _ _ _ => True := by
  have hempty : ∀ a, Gathers file outer (g a) fun _ => [] :=
    fun a => (hg a).mono fun _ _ _ hmore _ => .nil hmore
  exact (Reads.mapGathers hempty as).any

theorem reads_parametersOf (t : Tree) : Reads file outer (parametersOf t) fun _ _ _ => True := by
  unfold parametersOf
  split
  · exact .mapAny reads_parameterOf _
  · exact .pure fun _ => trivial

theorem reads_throwsOf (t : Tree) : Reads file outer (throwsOf t) fun _ _ _ => True := by
  unfold throwsOf
  split
  · exact .mapAny reads_typeUseOf _
  · exact .pure fun _ => trivial

theorem reads_resultOf (t : Tree) : Reads file outer (resultOf t) fun _ _ _ => True := by
  unfold resultOf
  split
  · exact (reads_typeUseOf _).bind fun _ => .pure fun _ _ _ _ => trivial
  · exact .pure fun _ => trivial

/-! ## Expressions -/

namespace Reader

/-- The reader keeps programs as they should be, its bodies are gathered, and its classes are where
they were asked for. -/
structure IsSound (file : FileId) (r : Reader) : Prop where
  expr : ∀ owner t, Gathers file (some owner) (r.expr owner t) Expr.visits
  stmt : ∀ owner t, Gathers file (some owner) (r.stmt owner t) Stmt.visits
  type : ∀ outer within isLocal t, (isLocal = true → outer.isSome = true) →
    Reads file outer (r.type outer within isLocal t) fun _ q id => q.IsInside outer within id

theorem gathered_other {lo hi : Program} (h : NoFewer lo hi) (head : Excerpt) :
    Gathered outer lo hi (Expr.other head []).visits :=
  (Gathered.nil h).cons rfl

theorem reads_emptyStmt (t : Tree) : Gathers file outer (emptyStmt t) Stmt.visits :=
  (reads_anchorOf t).bind fun _ => .pure fun _ _ hlo _ => (Gathered.nil hlo).cons rfl

/-- A parameter of a lambda is declared by a fresh node and has no initializer. -/
def IsParameter (outer : Option ClassId) (lo hi : Program) (l : Local) : Prop :=
  Gathered outer lo hi l.visits ∧ l.init.isNone = true

/-- The parameters of a lambda are declared by fresh nodes and have no initializers. -/
def AreParameters (outer : Option ClassId) (lo hi : Program) (ls : List Local) : Prop :=
  Gathered outer lo hi (Local.visitsList ls) ∧ ls.all (·.init.isNone) = true

theorem reads_lambdaLocals (t : Tree) :
    Reads file outer (lambdaLocals t) (AreParameters outer) := by
  have hmake : ∀ {lo hi : Program} {a : Anchor} (name : String) (type : TypeUse), NoFewer lo hi →
      lo.nodeCount ≤ a.node.index → a.node.index < hi.nodeCount →
      IsParameter outer lo hi (.mk a name type none) := by
    intro lo hi a name type hmore hlo hhi
    exact ⟨(Gathered.nil (.refl lo)).consLocal hmore hlo hhi, rfl⟩
  have hinferred : ∀ t, Reads file outer (inferredLocal t) (IsParameter outer) := by
    intro t
    refine (reads_anchorOf t).bind fun a =>
      (reads_unknownTypeAt _).bind fun type => .pure fun n mid hmid _ lo hlo ha => ?_
    exact hmake _ _ (hlo.trans hmid) ha.1 (Nat.lt_of_lt_of_le ha.2 hmid.nodes)
  have htyped : ∀ t, Reads file outer (typedLocal t) (IsParameter outer) := by
    intro t
    refine (reads_parameterOf t).bind fun x =>
      (reads_anchorOf t).bind fun a => .pure fun n mid hmid ha lo hlo _ => ?_
    exact hmake _ _ (hlo.trans hmid) (Nat.le_trans hlo.nodes ha.1) ha.2
  have hlist : ∀ {g : Tree → Build Local}, (∀ t, Reads file outer (g t) (IsParameter outer)) →
      ∀ ts : List Tree, Reads file outer (ts.mapM g) (AreParameters outer) := by
    intro g hg ts
    refine (Reads.mapM hg ts).mono fun lo hi ls _ hls => ?_
    exact ⟨Local.visitsList_eq ls ▸ hls.1, List.all_eq_true.mpr hls.2⟩
  unfold lambdaLocals
  split
  · refine (hinferred t).bind fun l => .pure fun n lo _ hl => ⟨?_, ?_⟩
    · rw [Local.visitsList_eq, List.flatMap_singleton]
      exact hl.1
    · rw [List.all_cons, hl.2]
      rfl
  · split
    · exact hlist hinferred _
    · exact hlist htyped _

variable {r : Reader} (h : r.IsSound file) (owner : ClassId) (t : Tree)
include h

theorem IsSound.exprs (ts : List Tree) :
    Gathers file (some owner) (r.exprs owner ts) Expr.visitsList := by
  refine (Reads.mapGathers (h.expr owner) ts).mono fun lo hi es _ hes => ?_
  rw [Expr.visitsList_eq]
  exact hes

omit h in
theorem reads_stmts {g : Tree → Build Stmt} (hg : ∀ t, Gathers file outer (g t) Stmt.visits)
    (ts : List Tree) :
    Gathers file outer (ts.mapM g) Stmt.visitsList := by
  refine (Reads.mapGathers hg ts).mono fun lo hi ss _ hss => ?_
  rw [Stmt.visitsList_eq]
  exact hss

theorem IsSound.stmts (ts : List Tree) :
    Gathers file (some owner) (r.stmts owner ts) Stmt.visitsList :=
  reads_stmts (h.stmt owner) ts

theorem IsSound.expr? (t : Option Tree) :
    Gathers file (some owner) (r.expr? owner t) Expr.visitsOption :=
  .mapOption rfl (fun _ => rfl) (h.expr owner) t

theorem IsSound.stmt? (t : Option Tree) :
    Gathers file (some owner) (r.stmt? owner t) Stmt.visitsOption :=
  .mapOption rfl (fun _ => rfl) (h.stmt owner) t

theorem IsSound.exprIn (part : Role) :
    Gathers file (some owner) (r.exprIn owner t part) Expr.visits := by
  unfold Reader.exprIn
  split
  · exact h.expr owner _
  · exact (reads_anchorOf t).bind fun _ => .pure fun _ _ hlo _ => gathered_other hlo _

theorem IsSound.exprsIn (part : Role) :
    Gathers file (some owner) (r.exprsIn owner t part) Expr.visitsList := by
  unfold Reader.exprsIn
  split
  · exact h.exprs owner _
  · exact .pure fun n => .nil (.refl n)

theorem IsSound.qualified (head : Excerpt) (object member : Option Tree) :
    Gathers file (some owner) (r.qualified owner head object member) Expr.visits :=
  (h.expr? owner object).bind fun _ => .pure fun _ _ _ hobject => hobject.cons rfl

theorem IsSound.evalStmt : Gathers file (some owner)
    (do let e ← r.expr owner t; return Stmt.eval (← anchorOf t) e) Stmt.visits :=
  (h.expr owner t).bind fun _ => (reads_anchorOf t).bind fun _ => .pure fun _ _ hmid _ _ _ he =>
    (he.widen (.refl _) hmid).cons rfl

theorem IsSound.lambdaExpr (head : Excerpt) :
    Gathers file (some owner) (r.lambdaExpr owner head t) Expr.visits := by
  have hbody : ∀ t, Gathers file (some owner) (r.lambdaBody owner t) Stmt.visits := by
    intro t
    unfold lambdaBody
    split
    · exact h.stmt owner t
    · exact h.evalStmt owner t
  have hmake : ∀ {lo mid hi : Program} {params : List Local} {body : Stmt},
    AreParameters (some owner) lo mid params →
      Gathered (some owner) mid hi body.visits →
      Gathered (some owner) lo hi (Expr.lambda head params body).visits := by
    intro lo mid hi params body hparams hbody
    exact (hparams.1.append hbody).cons (Prod.ext rfl (Prod.ext hparams.2 rfl))
  have hnone : Reads file (some owner) (pure []) (AreParameters (some owner)) :=
    .pure fun n => ⟨.nil (.refl n), rfl⟩
  unfold Reader.lambdaExpr
  dsimp only
  split <;> split
  · exact (reads_lambdaLocals _).bind fun _ =>
      (hbody _).bind fun _ => .pure fun _ _ _ hbody _ _ hparams =>
      hmake hparams hbody
  · exact (reads_lambdaLocals _).bind fun _ =>
      (reads_emptyStmt t).bind fun _ => .pure fun _ _ _ hbody _ _ hparams =>
      hmake hparams hbody
  · exact hnone.bind fun _ => (hbody _).bind fun _ =>
      .pure fun _ _ _ hbody _ _ hparams => hmake hparams hbody
  · exact hnone.bind fun _ => (reads_emptyStmt t).bind fun _ =>
      .pure fun _ _ _ hbody _ _ hparams => hmake hparams hbody

theorem IsSound.arrayExpr (head : Excerpt) :
    Gathers file (some owner) (r.arrayExpr owner head t) Expr.visits :=
  (reads_typeUseOrUnknown _ t).bind fun _ =>
    (h.exprs owner _).bind fun _ => (h.exprsIn owner t _).bind fun _ =>
    .pure fun _ _ _ hentries _ _ hsizes _ hlo _ =>
      ((hsizes.append hentries).widen hlo (.refl _)).cons rfl

theorem IsSound.updateExpr (head : Excerpt) :
    Gathers file (some owner) (r.updateExpr owner head t) Expr.visits := by
  unfold Reader.updateExpr
  dsimp only
  split
  · exact (h.expr owner _).bind fun _ => .pure fun _ _ _ he => he.cons rfl
  · exact .pure fun n => gathered_other (.refl n) head

theorem IsSound.nodeExpr (head : Excerpt) (kind : NodeKind) :
    Gathers file (some owner) (r.nodeExpr owner head kind t) Expr.visits := by
  unfold Reader.nodeExpr
  split
  · exact h.qualified owner head _ _
  · exact h.qualified owner head _ _
  · exact h.qualified owner head _ _
  · exact (h.expr? owner _).bind fun _ =>
      (h.exprsIn owner t _).bind fun _ => .pure fun _ _ _ hargs _ _ hobject =>
      (hobject.append hargs).cons rfl
  · exact (reads_typeUseOrUnknown _ t).bind fun _ =>
      (h.exprsIn owner t _).bind fun _ => .pure fun _ _ _ hargs _ hlo _ =>
      (hargs.widen hlo (.refl _)).cons rfl
  · split
    · exact (h.expr owner _).bind fun _ => .pure fun _ _ _ he => he.cons rfl
    · exact .pure fun n => gathered_other (.refl n) head
  · exact (h.exprIn owner t _).bind fun _ => .pure fun _ _ _ he => he.cons rfl
  · exact h.updateExpr owner t head
  · exact (h.exprIn owner t _).bind fun _ =>
      (h.exprIn owner t _).bind fun _ => .pure fun _ _ _ hright _ _ hleft =>
      (hleft.append hright).cons rfl
  · exact (h.exprIn owner t _).bind fun _ =>
      (h.exprIn owner t _).bind fun _ => (h.exprIn owner t _).bind fun _ =>
      .pure fun _ _ _ hfalse _ _ htrue _ _ hcondition =>
        ((hcondition.append htrue).append hfalse).cons rfl
  · exact (reads_typeUseOrUnknown _ t).bind fun _ =>
      (h.exprIn owner t _).bind fun _ => .pure fun _ _ _ he _ hlo _ =>
      (he.widen hlo (.refl _)).cons rfl
  · exact (h.exprIn owner t _).bind fun _ =>
      (h.exprIn owner t _).bind fun _ => .pure fun _ _ _ hright _ _ hleft =>
      (hleft.append hright).cons rfl
  · exact (h.exprIn owner t _).bind fun _ =>
      (h.exprIn owner t _).bind fun _ => .pure fun _ _ _ hright _ _ hleft =>
      (hleft.append hright).cons rfl
  · exact h.arrayExpr owner t head
  · exact (h.exprs owner _).bind fun _ => .pure fun _ _ _ hes =>
      (Gathered.nil (.refl _)).append hes |>.cons rfl
  · exact h.lambdaExpr owner t head
  · exact (h.exprs owner _).bind fun _ => .pure fun _ _ _ hes => hes.cons rfl

theorem IsSound.exprStep : Gathers file (some owner) (r.exprStep owner t) Expr.visits := by
  refine (reads_excerptOf t).bind fun head => ?_
  split
  · exact .pure fun _ _ hlo _ => (Gathered.nil hlo).cons rfl
  · exact .pure fun _ _ hlo _ => (Gathered.nil hlo).cons rfl
  · exact .pure fun _ _ hlo _ => (Gathered.nil hlo).cons rfl
  · exact .pure fun _ _ hlo _ => (Gathered.nil hlo).cons rfl
  · exact .pure fun _ _ hlo _ => gathered_other hlo head
  · exact (h.nodeExpr owner _ head _).mono fun _ _ _ _ he _ hlo _ => he.widen hlo (.refl _)

/-! ## Statements -/

theorem IsSound.stmtIn (part : Role) :
    Gathers file (some owner) (r.stmtIn owner t part) Stmt.visits := by
  unfold Reader.stmtIn
  split
  · exact h.stmt owner _
  · exact reads_emptyStmt t

theorem IsSound.declaredLocals :
    Gathers file (some owner) (r.declaredLocals owner t) Local.visitsList := by
  have hlocal : ∀ base t, Gathers file (some owner)
      (r.declaredLocal owner base t) Local.visits := by
    intro base t
    refine (reads_anchorAt _).bind fun _ =>
      (h.expr? owner _).bind fun init => (reads_anchorOf t).bind fun a =>
      .pure fun n last hlast ha mid hmid hinit lo hlo _ => ?_
    exact (hinit.widen hlo (.refl _)).consLocal hlast ha.1 ha.2
  refine (reads_typeUseOrUnknown _ t).bind fun base =>
    (Reads.mapGathers (hlocal base) _).mono fun mid hi ls _ hls lo hlo _ => ?_
  rw [Local.visitsList_eq]
  exact hls.widen hlo (.refl _)

theorem IsSound.loopInit : Gathers file (some owner) (r.loopInit owner t) Stmt.visits := by
  unfold Reader.loopInit
  split
  · exact h.stmt owner t
  · exact h.evalStmt owner t

theorem IsSound.forEachStmt : Gathers file (some owner) (r.forEachStmt owner t) Stmt.visits := by
  refine (reads_typeUseOrUnknown _ t).bind fun _ =>
    (reads_anchorAt _).bind fun a => (h.exprIn owner t _).bind fun _ =>
    (h.stmtIn owner t _).bind fun _ => (reads_anchorOf t).bind fun _ =>
      .pure fun _ _ hlast _ _ _ hbody _ _ hiterable mid hmid ha lo hlo _ => ?_
  have hitem : ∀ name type, Gathered (some owner) mid _ (Local.mk a name type none).visits :=
    fun name type =>
    (Gathered.nil (.refl mid)).consLocal hmid ha.1 ha.2
  exact ((((hitem _ _).append hiterable).append hbody).widen hlo hlast).cons rfl

theorem IsSound.resourceStmt : Gathers file (some owner) (r.resourceStmt owner t) Stmt.visits := by
  unfold Reader.resourceStmt
  split
  · refine (reads_typeUseOf _).bind fun _ =>
      (h.expr? owner _).bind fun value => (reads_anchorOf t).bind fun a =>
      (reads_anchorOf t).bind fun _ => .pure fun _ last hlast _ _ hnext ha _ _ hvalue lo hlo _ => ?_
    have hdeclared : ∀ name type,
        Gathered (some owner) lo last (Local.visitsList [.mk a name type value]) := by
      intro name type
      rw [Local.visitsList_eq, List.flatMap_singleton]
      exact (hvalue.widen hlo (.refl _)).consLocal hnext ha.1 ha.2
    exact ((hdeclared _ _).widen (.refl _) hlast).cons rfl
  · split
    · exact (h.expr owner _).bind fun _ =>
        (reads_anchorOf t).bind fun _ => .pure fun _ _ hlast _ _ _ he =>
        (he.widen (.refl _) hlast).cons rfl
    · exact reads_emptyStmt t

/-- A handler, if there is one, is read over fresh nodes, and the exception has no initializer. -/
def IsHandler (outer : Option ClassId) (lo hi : Program) (handler : Option Handler) : Prop :=
  Gathered outer lo hi (handler.elim [] Handler.visits) ∧ ∀ x ∈ handler, x.param.init.isNone = true

theorem IsSound.handlerOf? : Reads file (some owner) (r.handlerOf? owner t)
    (IsHandler (some owner)) := by
  unfold Reader.handlerOf?
  split
  · exact .pure fun n => ⟨.nil (.refl n), nofun⟩
  · refine (reads_typeUseOrUnknown _ _).bind fun _ =>
      (reads_anchorOf _).bind fun a => (h.stmtIn owner t _).bind fun _ =>
      .pure fun _ _ _ hbody mid hmid ha lo hlo _ => ⟨?_, ?_⟩
    · have hparam : ∀ name type, Gathered (some owner) mid _ (Local.mk a name type none).visits :=
        fun name type =>
        (Gathered.nil (.refl mid)).consLocal hmid ha.1 ha.2
      exact ((hparam _ _).append hbody).widen hlo (.refl _)
    · rintro x ⟨⟩
      rfl

theorem IsSound.attemptStmt : Gathers file (some owner) (r.attemptStmt owner t) Stmt.visits := by
  have hrest : ∀ resources, Reads file (some owner) (do
      let body ← r.stmtIn owner t .body
      let handlers ← (t.parts.filter (·.isNode .catchClause)).mapM (r.handlerOf? owner)
      let last ← r.stmt? owner ((t.childOf? .finallyClause).bind (·.parts.head?))
      return Stmt.attempt (← anchorOf t) resources body (handlers.filterMap id) last)
        fun mid hi s =>
        ∀ lo, NoFewer lo mid → Gathered (some owner) lo mid (Stmt.visitsList resources) →
          Gathered (some owner) lo hi s.visits := by
    intro resources
    refine (h.stmtIn owner t _).bind fun _ =>
      (Reads.mapM (h.handlerOf? owner) _).bind fun handlers =>
      (h.stmt? owner _).bind fun _ => (reads_anchorOf t).bind fun _ =>
        .pure fun _ _ hlast _ _ _ hfinal _ _ hhandlers _ _ hbody lo hlo hresources => ?_
    have hbare : (handlers.filterMap id).all (·.param.init.isNone) = true := by
      refine List.all_eq_true.mpr fun x hx => ?_
      obtain ⟨handler, hmem, hsome⟩ := List.mem_filterMap.mp hx
      exact hhandlers.2 handler hmem x hsome
    have hclauses := hhandlers.1
    rw [← Handler.visitsList_filterMap] at hclauses
    have hparts := ((hresources.append hbody).append hclauses).append hfinal
    exact (hparts.widen (.refl _) hlast).cons (Prod.ext rfl (Prod.ext hbare rfl))
  unfold Reader.attemptStmt
  dsimp only
  split
  · exact (reads_stmts (h.resourceStmt owner) _).bind hrest
  · exact (hrest []).mono fun mid hi s _ hs => hs mid (.refl _) (.nil (.refl _))

theorem IsSound.switchStmts :
    Gathers file (some owner) (r.switchStmts owner t) Stmt.visitsList := by
  refine reads_stmts (fun c => ?_) _
  split
  · exact h.stmt owner c
  · exact h.evalStmt owner c

theorem IsSound.aroundExpr {make : Anchor → Expr → Stmt}
    (hmake : ∀ {lo hi : Program} {e : Expr}, Gathered (some owner) lo hi e.visits →
      ∀ a, Gathered (some owner) lo hi (make a e).visits) :
    Gathers file (some owner) (r.aroundExpr owner t make) Stmt.visits := by
  unfold Reader.aroundExpr
  split
  · exact (h.expr owner _).bind fun _ =>
      (reads_anchorOf t).bind fun _ => .pure fun _ _ hlast _ _ _ he =>
      hmake (he.widen (.refl _) hlast) _
  · exact reads_emptyStmt t

theorem IsSound.localClass : Gathers file (some owner) (do
    let declared ← r.type (some owner) (ownerName owner (← get)) true t
    return Stmt.localClass (← anchorOf t) declared) Stmt.visits := by
  refine Reads.get.bind fun p => (h.type (some owner) _ true t fun _ => rfl).bind fun id =>
    (reads_anchorOf t).bind fun _ =>
    .pure fun hi last hlast _ mid hmid hinside lo hlo hp => ?_
  obtain ⟨rfl, haround⟩ := hp
  have hmore : NoFewer p hi := hlo.trans (hmid.trans hlast)
  refine ⟨hmore, ((Fresh.nil hmore.nodes).cons rfl rfl).cons rfl rfl, fun cls hcls => ?_⟩
  obtain rfl : cls = id := by simpa [Stmt.visits] using hcls
  -- The reader looks the name up before it reads the class, and the class around the body keeps it.
  obtain ⟨c, hc⟩ := Program.exists_class?_of_lt (haround.outer owner rfl)
  have hname : ownerName owner p = c.qualifiedName := by simp [ownerName, hc]
  obtain ⟨c', hc', hlabel⟩ := hmore.kept.kept owner c hc
  have hsame : c'.qualifiedName = c.qualifiedName := congrArg (·.2.1) hlabel
  refine ⟨c'.qualifiedName, by simp [hc'], ?_⟩
  rw [hsame, ← hname]
  exact hinside.later hlast.kept

theorem IsSound.nodeStmt (kind : NodeKind) :
    Gathers file (some owner) (r.nodeStmt owner kind t) Stmt.visits := by
  have hblock : Gathers file (some owner) (do
      let inner ← r.stmts owner t.parts
      return Stmt.block (← anchorOf t) inner) Stmt.visits :=
    (h.stmts owner _).bind fun _ => (reads_anchorOf t).bind fun _ =>
      .pure fun _ _ hlast _ _ _ hinner =>
      (hinner.widen (.refl _) hlast).cons rfl
  have hloop : Gathers file (some owner) (do
      let condition ← r.expr? owner (t.child? .condition)
      let body ← r.stmtIn owner t .body
      return Stmt.loop (← anchorOf t) [] condition [] body) Stmt.visits := by
    refine (h.expr? owner _).bind fun condition =>
      (h.stmtIn owner t _).bind fun body => (reads_anchorOf t).bind fun _ =>
      .pure fun _ _ hlast _ _ _ hbody lo _ hcondition => ?_
    have hparts :=
      (((Gathered.nil (.refl lo)).append hcondition).append (.nil (.refl _))).append hbody
    exact (hparts.widen (.refl _) hlast).cons rfl
  have hlabeled : Gathers file (some owner) (do
      let inner ← r.stmts owner (t.parts.filter isStatement)
      let exprs ← r.exprs owner (t.parts.filter (·.isNode .paren))
      return Stmt.other (← anchorOf t) inner exprs) Stmt.visits :=
    (h.stmts owner _).bind fun _ => (h.exprs owner _).bind fun _ => (reads_anchorOf t).bind fun _ =>
      .pure fun _ _ hlast _ _ _ hexprs _ _ hinner =>
        ((hinner.append hexprs).swap.widen (.refl _) hlast).cons rfl
  have hother : ∀ {x : Build (List Expr)}, Gathers file (some owner) x Expr.visitsList →
      Gathers file (some owner) (do let exprs ← x; return Stmt.other (← anchorOf t) [] exprs)
        Stmt.visits := by
    intro x hx
    refine hx.bind fun _ => (reads_anchorOf t).bind fun _ => .pure fun _ _ hlast _ _ _ hexprs => ?_
    exact ((hexprs.append (.nil (.refl _))).widen (.refl _) hlast).cons rfl
  unfold Reader.nodeStmt
  split
  · exact hblock
  · exact hblock
  · exact h.aroundExpr owner t fun he _ => he.cons rfl
  · exact h.aroundExpr owner t fun he _ => he.cons rfl
  · exact (h.declaredLocals owner t).bind fun _ =>
      (reads_anchorOf t).bind fun _ => .pure fun _ _ hlast _ _ _ hlocals =>
      (hlocals.widen (.refl _) hlast).cons rfl
  · exact (h.exprIn owner t _).bind fun _ =>
      (h.stmtIn owner t _).bind fun _ => (h.stmt? owner _).bind fun _ =>
      (reads_anchorOf t).bind fun _ => .pure fun _ _ hlast _ _ _ hfalse _ _ htrue _ _ hcondition =>
        (((hcondition.append htrue).append hfalse).widen (.refl _) hlast).cons rfl
  · exact hloop
  · exact hloop
  · exact (reads_stmts (h.loopInit owner) _).bind fun _ =>
      (h.expr? owner _).bind fun _ => (h.exprs owner _).bind fun _ =>
      (h.stmtIn owner t _).bind fun _ => (reads_anchorOf t).bind fun _ =>
        .pure fun _ _ hlast _ _ _ hbody _ _ hupdate _ _ hcondition _ _ hinit =>
          ((((hinit.append hcondition).append hupdate).append hbody).widen (.refl _) hlast).cons rfl
  · exact h.forEachStmt owner t
  · exact (h.expr? owner _).bind fun _ =>
      (reads_anchorOf t).bind fun _ => .pure fun _ _ hlast _ _ _ hvalue =>
      (hvalue.widen (.refl _) hlast).cons rfl
  · exact h.attemptStmt owner t
  · exact h.attemptStmt owner t
  · split
    · exact reads_emptyStmt t
    · exact (h.expr owner _).bind fun _ =>
        (h.expr? owner _).bind fun _ => (reads_anchorOf t).bind fun _ =>
        .pure fun _ _ hlast _ _ _ hmessage _ _ hcondition =>
          ((hcondition.append hmessage).widen (.refl _) hlast).cons rfl
  · exact h.localClass owner t
  · exact h.localClass owner t
  · exact h.localClass owner t
  · exact h.localClass owner t
  · exact h.localClass owner t
  · exact hother (h.exprsIn owner t _)
  · exact (h.exprs owner _).bind fun _ =>
      (h.switchStmts owner t).bind fun _ => (reads_anchorOf t).bind fun _ =>
      .pure fun _ _ hlast _ _ _ hinner _ _ hcondition =>
        ((hcondition.append hinner).widen (.refl _) hlast).cons rfl
  · exact hlabeled
  · exact hlabeled
  · exact reads_emptyStmt t
  · exact reads_emptyStmt t
  · exact reads_emptyStmt t
  · exact hother (h.exprs owner _)

theorem IsSound.stmtStep : Gathers file (some owner) (r.stmtStep owner t) Stmt.visits := by
  unfold Reader.stmtStep
  split
  · exact reads_emptyStmt _
  · exact h.nodeStmt owner _ _

/-! ## Classes -/

omit h in
theorem reads_addField {f : Field} (howner : f.owner = owner) :
    Reads file (some owner) (modify fun p : Program => (p.addField f).2) fun _ _ _ => True := by
  refine ⟨fun p haround => ⟨fun hp => ?_, fun hp => hp.of_methodSlots rfl, fun hp => ?_,
    fun hp => hp.addField f, ?_⟩, fun _ _ => trivial⟩
  · refine hp.addField ?_
    rw [howner]
    exact haround.outer owner rfl
  · exact hp.of_methodSlots (p.keepsClasses_addField f) rfl
  · exact ⟨Nat.le_refl _, Nat.le_of_eq (p.size_classes_addField f).symm, Nat.le_refl _,
      p.keepsClasses_addField f⟩

omit h in
theorem reads_addComponent : Reads file (some owner) (addComponent owner t) fun _ _ _ => True :=
  (reads_parameterOf t).bind fun _ => (reads_addField owner rfl).mono fun _ _ _ _ _ _ _ _ => trivial

theorem IsSound.addFields : Reads file (some owner) (r.addFields owner t) fun _ _ _ => True := by
  refine .forM (fun c => ?_) _
  exact (h.expr? owner _).bind fun _ => (reads_anchorAt _).bind fun _ =>
    (reads_addField owner rfl).mono fun _ _ _ _ _ _ _ _ _ _ _ => trivial

omit h in
theorem keeps_addMethod {m : Method} {p : Program} (howner : m.owner = some owner)
    (hfile : m.file = file) (hp : Around file (some owner) p) {lo : Program}
    (hm : Gathered (some owner) lo p m.visits) :
    Keeps (modify fun p : Program => (p.addMethod m).2) p := by
  refine ⟨fun h => h.addMethod ⟨?_, ?_⟩, fun h => h.addMethod hm.fresh.tidy,
    fun h => h.addMethod ?_, fun h => h.addMethod m, ⟨?_, ?_, ?_, ?_⟩⟩
  · rw [howner]
    exact hp.outer
  · rw [hfile]
    exact hp.file
  · rw [howner]
    exact hm.housed
  · exact Nat.le_of_eq (p.size_files_addMethod m).symm
  · exact Nat.le_of_eq (p.size_classes_addMethod m).symm
  · exact Nat.le_of_eq (p.nodeCount_addMethod m).symm
  · exact p.keepsClasses_addMethod m

theorem IsSound.addMethod : Reads file (some owner)
    (r.addMethod owner file t) fun _ _ _ => True := by
  refine (reads_resultOf t).bind fun _ =>
    (reads_parametersOf t).bind fun _ => (reads_throwsOf t).bind fun _ =>
    ((h.stmt? owner _).bindKept fun lo p body hp hbody =>
      ?_).mono fun _ _ _ _ _ _ _ _ _ _ _ _ _ _ => trivial
  exact keeps_addMethod owner rfl rfl hp hbody

theorem IsSound.addMember (within : String) :
    Reads file (some owner) (r.addMember owner file within t) fun _ _ _ => True := by
  unfold Reader.addMember
  split
  · exact h.addFields owner t
  · split
    · exact h.addMethod owner t
    · split
      · exact (h.type (some owner) within false t nofun).bind fun _ => .pure fun _ _ _ _ => trivial
      · exact .pure fun _ => trivial

omit h in
theorem reads_addClass {c : TypeDecl} {f : ClassId → Build ClassId} {within : String}
    (houter : c.outer = outer) (hfile : c.file = file) (hfields : c.fields = [])
    (hlocal : c.isLocal = true → outer.isSome = true)
    (hnamed : c.qualifiedName = qualifiedIn within c.name)
    (hf : ∀ id, Reads file (some id) (f id) fun _ _ answer => answer = id) :
    Reads file outer (modifyGet (fun p : Program => p.addClass c) >>= f) fun _ q id =>
      q.IsInside outer within id := by
  have hkept : ∀ p : Program, p.KeepsClasses (p.addClass c).2 :=
    fun p => p.keepsClasses_addClass (houter ▸ hlocal)
  have hmore : ∀ p : Program, NoFewer p (p.addClass c).2 := by
    intro p
    refine ⟨Nat.le_of_eq (p.size_files_addClass c).symm, ?_,
      Nat.le_of_eq (p.nodeCount_addClass c).symm, hkept p⟩
    rw [p.size_classes_addClass]
    exact Nat.le_succ _
  have hinside : ∀ p : Program, Around file outer p →
      Around file (some ⟨p.classes.size⟩) (p.addClass c).2 := by
    intro p haround
    refine ⟨(haround.later (hmore p)).file, ?_⟩
    rintro o ⟨⟩
    rw [p.size_classes_addClass]
    exact Nat.lt_succ_self _
  refine ⟨fun p haround => .bind ⟨fun hp => hp.addClass ⟨?_, ?_, ?_, ?_⟩, fun hp => ?_,
    fun hp => ?_, fun hp => hp.addClass ?_, hmore p⟩ ?_, fun p haround => ?_⟩
  · rw [houter]
    exact haround.outer
  · rw [hfile]
    exact haround.file
  · rw [hfields]
    exact nofun
  · rw [hnamed]
    exact qualifiedIn_cases within c.name
  -- The bodies are what they were, and the rest of the class is read inside the new one.
  · exact hp.of_methodSlots (p.methodSlots_linkClass _ c)
  · exact hp.of_methodSlots (hkept p) (p.methodSlots_linkClass _ c)
  · rw [houter]
    exact haround.outer
  · exact (hf ⟨p.classes.size⟩).keeps _ (hinside p haround)
  · have hanswer := (hf ⟨p.classes.size⟩).holds (p.addClass c).2 (hinside p haround)
    have hnew : (p.addClass c).2.IsInside outer within ⟨p.classes.size⟩ :=
      .inr ⟨_, (p.class?_addClass c _).trans (if_pos rfl), houter, hnamed⟩
    change Program.IsInside _ outer within (f ⟨p.classes.size⟩ (p.addClass c).2).1
    rw [hanswer]
    exact hnew.later ((hf ⟨p.classes.size⟩).keeps _ (hinside p haround)).more.kept

theorem IsSound.members (id : ClassId) (qualifiedName : String) :
    Reads file (some id) (do
      match t.child? .body with
      | some body => (memberTrees body).forM (r.addMember id file qualifiedName)
      | none => pure ()
      return id) fun _ _ answer => answer = id := by
  dsimp only
  split
  · exact (Reads.forM (fun m => h.addMember id m qualifiedName) _).bind fun _ =>
      .pure fun _ _ _ _ => rfl
  · exact .pure fun _ => rfl

theorem IsSound.typeStep (outer : Option ClassId) (within : String) (isLocal : Bool)
    (hlocal : isLocal = true → outer.isSome = true) :
    Reads file outer (r.typeStep file outer within isLocal t) fun _ q id =>
      q.IsInside outer within id := by
  refine reads_addClass rfl rfl rfl hlocal rfl fun id => ?_
  dsimp only
  split
  · exact (Reads.forM (reads_addComponent id) _).bind fun _ =>
      (h.members t id _).mono fun _ _ _ _ hid _ _ _ => hid
  · exact h.members t id _

omit h in
theorem sound_below (file : FileId) (n : Nat) : (below file n).IsSound file := by
  induction n with
  | zero =>
    -- A reader of this depth answers the first class of the program for every class, as `IsInside`
    -- allows.
    refine ⟨fun _ t => ?_, fun _ t => reads_emptyStmt t, fun _ _ _ _ _ => .pure fun _ => .inl rfl⟩
    exact (reads_excerptOf t).bind fun _ => .pure fun _ _ hlo _ => gathered_other hlo _
  | succ n ih => exact ⟨ih.exprStep, ih.stmtStep,
      fun outer within isLocal t => ih.typeStep t outer within isLocal⟩

end Reader

theorem reads_addTypes (file : FileId) (package : Option String) (root : Tree) :
    Reads file none (addTypes file package root) fun _ _ _ => True := by
  refine .forM (fun t => ?_) _
  exact ((Reader.sound_below file _).type none _ false t nofun).bind fun _ =>
    .pure fun _ _ _ _ => trivial

end Java

namespace Program

open Java

variable {p : Program}

theorem around_addFile (p : Program) (path : Path) (package : Option String) (imports : List Import)
    (origin : Origin) :
    Around ⟨p.files.size⟩ none (p.addFile path package imports origin).2 := by
  refine ⟨?_, nofun⟩
  simp [Program.addFile, pushFile, bump]

/-- **Reading keeps programs grounded**, whatever the tree contains. -/
theorem Grounded.addTree (h : p.Grounded) (path : Path) (root : Tree) (origin : Origin) :
    (p.addTree path root origin).2.Grounded :=
  (reads_addTypes _ (packageOf root) root).keeps _ (p.around_addFile path _ (importsOf root) origin)
    |>.grounded (h.addFile path _ _ origin)

theorem Tidy.addTree (h : p.Tidy) (path : Path) (root : Tree) (origin : Origin) :
    (p.addTree path root origin).2.Tidy :=
  (reads_addTypes _ (packageOf root) root).keeps _ (p.around_addFile path _ (importsOf root) origin)
    |>.tidy (h.of_methodSlots rfl)

theorem Housed.addTree (h : p.Housed) (path : Path) (root : Tree) (origin : Origin) :
    (p.addTree path root origin).2.Housed :=
  (reads_addTypes _ (packageOf root) root).keeps _ (p.around_addFile path _ (importsOf root) origin)
    |>.housed (h.of_methodSlots (.of_classes rfl) rfl)

theorem OuterFirst.addTree (h : p.OuterFirst) (path : Path) (root : Tree) (origin : Origin) :
    (p.addTree path root origin).2.OuterFirst :=
  (reads_addTypes _ (packageOf root) root).keeps _ (p.around_addFile path _ (importsOf root) origin)
    |>.outerFirst (h.of_classes rfl)

/-- The program of some syntax trees, read one after another. -/
def ofTrees (trees : List (Path × Tree × Origin)) : Program :=
  trees.foldl (fun p (path, root, origin) => (p.addTree path root origin).2) .empty

theorem grounded_ofTrees (trees : List (Path × Tree × Origin)) : (ofTrees trees).Grounded := by
  have hfold : ∀ p : Program, p.Grounded →
      (trees.foldl (fun p (path, root, origin) => (p.addTree path root origin).2) p).Grounded := by
    induction trees with
    | nil => exact fun _ h => h
    | cons tree rest ih => exact fun p h => ih _ (h.addTree ..)
  exact hfold .empty grounded_empty

end Program

end KernelLint
