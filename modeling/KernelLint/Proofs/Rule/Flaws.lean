import KernelLint.Java.Source
import KernelLint.Proofs.Rule.Findings
import KernelLint.Proofs.Syntax.Parts
import KernelLint.Resolve.Program
import Mathlib.Data.Set.Function

/-!
# Flaws in the source

Three rules judge a method by what is written in it and look no further: those about exceptions,
assertions and data types. What they object to is put down here piece by piece (`Method.HasFlaw`),
wherever in the body it stands. If the nodes of the program have identities of their own and no
class is declared twice in bodies, then the findings of such a rule and the flaws of the members of
the scope correspond one to one (`RuleKind.bijOn_flaws`): the walk of a body meets every flaw, and
leaving out repeated remarks never leaves out a flaw.
-/

namespace KernelLint

/-! ## Pieces of the source -/

/-- A piece of the source that has an identity. -/
inductive Piece where
  | stmt (s : Stmt)
  | expr (e : Expr)
  | localVar (l : Local)
  | type (t : TypeUse)

namespace Piece

def node : Piece → NodeId
  | .stmt s => s.node
  | .expr e => e.node
  | .localVar l => l.node
  | .type t => t.node

def span : Piece → Span
  | .stmt s => s.span
  | .expr e => e.span
  | .localVar l => l.anchor.span
  | .type t => t.span

end Piece

/-- The pieces at one stop of the walk: what is met there, and the type written with it. -/
def Visit.pieces : Visit → List Piece
  | .stmt s => [.stmt s]
  | .expr e@(.create _ t _ _) => [.expr e, .type t]
  | .expr e@(.cast _ t _) => [.expr e, .type t]
  | .expr e@(.newArray _ t _ _) => .expr e :: t.toList.map .type
  | .expr e => [.expr e]
  | .localVar l => [.localVar l, .type l.type]
  | .localClass _ => []

/-- The pieces of a method: the types of its head, then its body. -/
def Method.pieces (m : Method) : List Piece :=
  (m.params.map (·.type) ++ m.result.toList ++ m.throws).map .type ++ m.visits.flatMap Visit.pieces

/-- The pieces of a field. -/
def Field.pieces (f : Field) : List Piece :=
  .type f.type :: (Expr.visitsOption f.init).flatMap Visit.pieces

/-- What a piece belongs to. -/
inductive Holder where
  | method (id : MethodId)
  | type (id : ClassId)

namespace Program

/-- The pieces of the live methods, then those of the fields of the classes. -/
def pieces (p : Program) : List (Holder × Piece) :=
  (p.methods.flatMap fun m => m.pieces.map (.method m.id, ·)) ++
    p.classes.toList.flatMap fun c =>
      ((c.fields.filterMap p.field?).flatMap Field.pieces).map (.type c.id, ·)

/-- The identities of all pieces. -/
def nodes (p : Program) : List NodeId := p.pieces.map (·.2.node)

/-- The classes declared in bodies, with the methods whose bodies declare them. -/
def localClasses (p : Program) : List (MethodId × ClassId) :=
  p.methods.flatMap fun m => m.visits.filterMap fun
    | .localClass id => some (m.id, id)
    | _ => none

end Program

/-! ## Flaws -/

/-- The method declares something of that type: a parameter, a local variable of whatever sort
anywhere in its body, or a field of a class that stands anywhere in its body. -/
inductive Method.Declares (m : Method) (p : Program) : TypeUse → Prop
  | param {q : Parameter} (mem : q ∈ m.params) : Declares m p q.type
  | localVar {l : Local} (inside : m.Holds (.localVar l)) : Declares m p l.type
  | field {id : ClassId} {c : TypeDecl} {fieldId : FieldId} {f : Field}
      (inside : m.Holds (.localClass id))
      (class_eq : p.class? id = some c) (mem : fieldId ∈ c.fields)
        (field_eq : p.field? fieldId = some f) :
    Declares m p f.type

/-- A piece of the source that a rule objects to, and the objection. -/
structure Flaw where
  rule : RuleKind
  piece : Piece
  message : String

/-- The flaws of a method: `throw` and `try` statements and entries of the `throws` clause, `assert`
statements, and declared types that the device cannot hold. -/
inductive Method.HasFlaw (m : Method) (p : Program) (c : Config) : Flaw → Prop
  | raise {head : Anchor} {value : Expr} (inside : m.Holds (.stmt (.raise head value))) :
    HasFlaw m p c ⟨.throw, .stmt (.raise head value), Message.throwStatement⟩
  | attempt {head : Anchor} {resources : List Stmt} {body : Stmt} {handlers : List Handler}
      {last : Option Stmt}
      (inside : m.Holds (.stmt (.attempt head resources body handlers last))) :
    HasFlaw m p c ⟨.throw, .stmt (.attempt head resources body handlers last), Message.tryStatement⟩
  | clause {t : TypeUse} (mem : t ∈ m.throws) :
    HasFlaw m p c ⟨.throw, .type t, Message.throwsClause t.type.render⟩
  | assertion {head : Anchor} {condition : Expr} {message : Option Expr}
      (inside : m.Holds (.stmt (.assertion head condition message))) :
    HasFlaw m p c ⟨.assert, .stmt (.assertion head condition message), Message.assertion⟩
  | type {t : TypeUse} (declared : m.Declares p t) (unsupported : c.supports t.type = false) :
    HasFlaw m p c ⟨.dataType, .type t, Message.unsupportedType t.type.renderShort⟩

namespace RuleContext

/-- The remark on a flaw of a member. -/
def remarkOn (ctx : RuleContext) (m : Method) (flaw : Flaw) : Remark :=
  ctx.remark m flaw.piece.node flaw.piece.span flaw.message .error

/-- The finding that reports a flaw of a member. -/
def findingOn (ctx : RuleContext) (x : Method × Flaw) : Finding :=
  { ctx.remarkOn x.1 x.2 with rule := x.2.rule, kernel := ctx.kernel.id }

/-- The flaws that a rule objects to in the members of the scope, each with the member it is in. -/
def flaws (ctx : RuleContext) (rule : RuleKind) : Set (Method × Flaw) :=
  {x | x.1 ∈ ctx.members ∧ x.1.HasFlaw ctx.program ctx.config x.2 ∧ x.2.rule = rule}

variable {ctx : RuleContext} {m : Method} {n : Notice}

/-! ## Remarks and flaws -/

theorem mem_onStmts {test : Stmt → Bool} {message : String} : n ∈ Rule.onStmts ctx m test message ↔
    ∃ s, m.Holds (.stmt s) ∧ test s = true ∧
      n = .flagging (ctx.remark m s.node s.span message .error) := by
  rw [Rule.onStmts, List.mem_map]
  simp only [List.mem_filter, Method.mem_stmts, and_assoc, eq_comm]

theorem mem_throw : n ∈ Rule.throw ctx ↔
    ∃ x ∈ ctx.flaws .throw, n = .flagging (ctx.remarkOn x.1 x.2) := by
  rw [Rule.throw, mem_onMembers]
  constructor
  · rintro ⟨m, hm, hn⟩
    rcases List.mem_append.mp hn with hn | hn
    · rcases List.mem_append.mp hn with hn | hn
      · obtain ⟨s, hs, htest, rfl⟩ := mem_onStmts.mp hn
        cases s <;> cases htest
        exact ⟨(m, _), ⟨hm, .raise hs, rfl⟩, rfl⟩
      · obtain ⟨s, hs, htest, rfl⟩ := mem_onStmts.mp hn
        cases s <;> cases htest
        exact ⟨(m, _), ⟨hm, .attempt hs, rfl⟩, rfl⟩
    · obtain ⟨t, ht, rfl⟩ := List.mem_map.mp hn
      exact ⟨(m, _), ⟨hm, .clause ht, rfl⟩, rfl⟩
  · rintro ⟨⟨m, flaw⟩, ⟨hm, hflaw, hrule⟩, rfl⟩
    refine ⟨m, hm, ?_⟩
    cases hflaw with
    | raise hs =>
        exact List.mem_append_left _ (List.mem_append_left _ (mem_onStmts.mpr ⟨_, hs, rfl, rfl⟩))
    | attempt hs =>
        exact List.mem_append_left _ (List.mem_append_right _ (mem_onStmts.mpr ⟨_, hs, rfl, rfl⟩))
    | clause ht => exact List.mem_append_right _ (List.mem_map.mpr ⟨_, ht, rfl⟩)
    | assertion => cases hrule
    | type => cases hrule

theorem mem_assert : n ∈ Rule.assert ctx ↔
    ∃ x ∈ ctx.flaws .assert, n = .flagging (ctx.remarkOn x.1 x.2) := by
  rw [Rule.assert, mem_onMembers]
  constructor
  · rintro ⟨m, hm, hn⟩
    obtain ⟨s, hs, htest, rfl⟩ := mem_onStmts.mp hn
    cases s <;> cases htest
    exact ⟨(m, _), ⟨hm, .assertion hs, rfl⟩, rfl⟩
  · rintro ⟨⟨m, flaw⟩, ⟨hm, hflaw, hrule⟩, rfl⟩
    refine ⟨m, hm, ?_⟩
    cases hflaw with
    | assertion hs => exact mem_onStmts.mpr ⟨_, hs, rfl, rfl⟩
    | _ => cases hrule

theorem mem_typesAt {p : Program} {v : Visit} {t : TypeUse} : t ∈ Rule.typesAt p v ↔
    (∃ l, v = .localVar l ∧ l.type = t) ∨
      ∃ id c fieldId f, v = .localClass id ∧ p.class? id = some c ∧ fieldId ∈ c.fields ∧
        p.field? fieldId = some f ∧ f.type = t := by
  cases v with
  | localClass id =>
    rw [Rule.typesAt]
    cases hclass : p.class? id with
    | none => simp [hclass]
    | some c =>
      simp only [List.mem_map, List.mem_filterMap]
      constructor
      · rintro ⟨f, ⟨fieldId, hmem, hfield⟩, rfl⟩
        exact .inr ⟨id, c, fieldId, f, rfl, hclass, hmem, hfield, rfl⟩
      · rintro (⟨l, hl, -⟩ | ⟨other, c', fieldId, f, hid, hclass', hmem, hfield, rfl⟩)
        · cases hl
        · cases hid
          cases hclass.symm.trans hclass'
          exact ⟨f, ⟨fieldId, hmem, hfield⟩, rfl⟩
  | _ => simp [Rule.typesAt, eq_comm]

theorem mem_declaredTypes {p : Program} {t : TypeUse} :
    t ∈ Rule.declaredTypes p m ↔ m.Declares p t := by
  rw [Rule.declaredTypes, List.mem_append, List.mem_map, List.mem_flatMap]
  constructor
  · rintro (⟨q, hq, rfl⟩ | ⟨v, hv, ht⟩)
    · exact .param hq
    · rcases mem_typesAt.mp ht with ⟨l, rfl, rfl⟩ | ⟨id, c, fieldId, f, rfl, hclass, hmem,
        hfield, rfl⟩
      · exact .localVar (Method.mem_visits.mp hv)
      · exact .field (Method.mem_visits.mp hv) hclass hmem hfield
  · rintro (hq | hl | ⟨hinside, hclass, hmem, hfield⟩)
    · exact .inl ⟨_, hq, rfl⟩
    · exact .inr ⟨_, Method.mem_visits.mpr hl, mem_typesAt.mpr (.inl ⟨_, rfl, rfl⟩)⟩
    · exact .inr ⟨_, Method.mem_visits.mpr hinside,
        mem_typesAt.mpr (.inr ⟨_, _, _, _, rfl, hclass, hmem, hfield, rfl⟩)⟩

theorem mem_dataType : n ∈ Rule.dataType ctx ↔
    ∃ x ∈ ctx.flaws .dataType, n = .flagging (ctx.remarkOn x.1 x.2) := by
  rw [Rule.dataType, mem_onMembers]
  constructor
  · rintro ⟨m, hm, hn⟩
    obtain ⟨t, ht, rfl⟩ := List.mem_map.mp hn
    obtain ⟨hdeclared, hno⟩ := List.mem_filter.mp ht
    exact ⟨(m, _), ⟨hm, .type (mem_declaredTypes.mp hdeclared) (by simpa using hno), rfl⟩, rfl⟩
  · rintro ⟨⟨m, flaw⟩, ⟨hm, hflaw, hrule⟩, rfl⟩
    refine ⟨m, hm, ?_⟩
    cases hflaw with
    | type hdeclared hno =>
      exact List.mem_map.mpr ⟨_,
        List.mem_filter.mpr ⟨mem_declaredTypes.mpr hdeclared, by simpa using hno⟩, rfl⟩
    | _ => cases hrule

end RuleContext

theorem RuleContext.mem_notices {ctx : RuleContext} {rule : RuleKind}
    (hrule : rule ∈ [.throw, .assert, .dataType]) {n : Notice} :
    n ∈ rule.notices ctx ↔ ∃ x ∈ ctx.flaws rule, n = .flagging (ctx.remarkOn x.1 x.2) := by
  simp only [List.mem_cons, List.not_mem_nil, or_false] at hrule
  rcases hrule with rfl | rfl | rfl
  · exact mem_throw
  · exact mem_assert
  · exact mem_dataType

/-- **The remarks of a syntactic rule are those on the flaws of the members.** -/
theorem RuleContext.mem_remarks {ctx : RuleContext} {rule : RuleKind}
    (hrule : rule ∈ [.throw, .assert, .dataType]) {r : Remark} :
    r ∈ rule.remarks ctx ↔ ∃ x ∈ ctx.flaws rule, r = ctx.remarkOn x.1 x.2 := by
  rw [RuleKind.remarks, List.mem_map]
  constructor
  · rintro ⟨n, hn, rfl⟩
    obtain ⟨x, hx, rfl⟩ := (mem_notices hrule).mp hn
    exact ⟨x, hx, rfl⟩
  · rintro ⟨x, hx, rfl⟩
    exact ⟨_, (mem_notices hrule).mpr ⟨x, hx, rfl⟩, rfl⟩

/-! ## A piece tells where it stands -/

namespace Program

variable {p : Program} {m : Method} {c : Config} {flaw : Flaw}

theorem mem_pieces_of_method (hm : m ∈ p.methods) {piece : Piece} (h : piece ∈ m.pieces) :
    (Holder.method m.id, piece) ∈ p.pieces :=
  List.mem_append_left _ (List.mem_flatMap.mpr ⟨m, hm, List.mem_map_of_mem h⟩)

theorem mem_pieces_of_visit {v : Visit} (hv : m.Holds v) {piece : Piece} (h : piece ∈ v.pieces) :
    piece ∈ m.pieces :=
  List.mem_append_right _ (List.mem_flatMap.mpr ⟨v, Method.mem_visits.mpr hv, h⟩)

theorem mem_pieces_of_field {id : ClassId} {cls : TypeDecl} {fieldId : FieldId} {f : Field}
    (hclass : p.class? id = some cls) (hmem : fieldId ∈ cls.fields)
    (hfield : p.field? fieldId = some f) :
    (Holder.type id, .type f.type) ∈ p.pieces := by
  have hid : cls.id = id := p.classes_numbered id.index cls hclass
  have hlisted : f ∈ cls.fields.filterMap p.field? := List.mem_filterMap.mpr ⟨fieldId, hmem, hfield⟩
  refine List.mem_append_right _ (List.mem_flatMap.mpr ⟨cls, ?_, ?_⟩)
  · rw [Array.mem_toList_iff]
    exact Array.mem_of_getElem? hclass
  · rw [← hid]
    exact List.mem_map_of_mem (List.mem_flatMap.mpr ⟨f, hlisted, List.mem_cons_self⟩)

theorem mem_localClasses (hm : m ∈ p.methods) {id : ClassId} (h : m.Holds (.localClass id)) :
    (m.id, id) ∈ p.localClasses :=
  List.mem_flatMap.mpr ⟨m, hm, List.mem_filterMap.mpr ⟨_, Method.mem_visits.mpr h, rfl⟩⟩

/-- The holder stands for the method, or for a class in its body. -/
def Keeps (p : Program) (m : Method) (holder : Holder) : Prop :=
  holder = .method m.id ∨ ∃ id, holder = .type id ∧ (m.id, id) ∈ p.localClasses

theorem exists_holder (hm : m ∈ p.methods) (h : m.HasFlaw p c flaw) :
    ∃ holder, p.Keeps m holder ∧ (holder, flaw.piece) ∈ p.pieces := by
  -- all pieces but the types of fields are pieces of the method itself
  have hown : flaw.piece ∈ m.pieces → ∃ holder, p.Keeps m holder ∧
      (holder, flaw.piece) ∈ p.pieces :=
    fun hpiece => ⟨.method m.id, .inl rfl, mem_pieces_of_method hm hpiece⟩
  cases h with
  | raise hs => exact hown (mem_pieces_of_visit hs (by simp [Visit.pieces]))
  | attempt hs => exact hown (mem_pieces_of_visit hs (by simp [Visit.pieces]))
  | clause ht =>
      exact hown (List.mem_append_left _ (List.mem_map_of_mem (List.mem_append_right _ ht)))
  | assertion hs => exact hown (mem_pieces_of_visit hs (by simp [Visit.pieces]))
  | type hdeclared =>
    cases hdeclared with
    | param hq =>
      refine hown (List.mem_append_left _ (List.mem_map_of_mem ?_))
      exact List.mem_append_left _ (List.mem_append_left _ (List.mem_map_of_mem hq))
    | localVar hl => exact hown (mem_pieces_of_visit hl (by simp [Visit.pieces]))
    | field hinside hclass hmem hfield =>
      exact ⟨.type _, .inr ⟨_, rfl, mem_localClasses hm hinside⟩,
        mem_pieces_of_field hclass hmem hfield⟩

theorem id_eq_of_keeps {m' : Method} {holder : Holder} (hclasses : (p.localClasses.map (·.2)).Nodup)
    (h : p.Keeps m holder) (h' : p.Keeps m' holder) : m.id = m'.id := by
  rcases h with rfl | ⟨id, rfl, hmem⟩
  · rcases h' with h' | ⟨id, h', -⟩
    · exact Holder.method.inj h'
    · cases h'
  · rcases h' with h' | ⟨id', h', hmem'⟩
    · cases h'
    · cases h'
      exact congrArg Prod.fst (List.inj_on_of_nodup_map hclasses hmem hmem' rfl)

end Program

theorem Method.HasFlaw.eq_of_piece {m m' : Method} {p : Program} {c : Config} {flaw flaw' : Flaw}
    (h : m.HasFlaw p c flaw) (h' : m'.HasFlaw p c flaw') (hrule : flaw.rule = flaw'.rule)
    (hpiece : flaw.piece = flaw'.piece) : flaw = flaw' := by
  cases h <;> cases h' <;> cases hrule <;> cases hpiece <;> rfl

namespace RuleContext

variable {ctx : RuleContext} {rule : RuleKind}

/-- **A flaw is known by its node.** -/
theorem eq_of_node (hnodes : ctx.program.nodes.Nodup)
    (hclasses : (ctx.program.localClasses.map (·.2)).Nodup) {x y : Method × Flaw}
    (hx : x ∈ ctx.flaws rule) (hy : y ∈ ctx.flaws rule) (h : x.2.piece.node = y.2.piece.node) :
    x = y := by
  obtain ⟨m, flaw⟩ := x
  obtain ⟨m', flaw'⟩ := y
  obtain ⟨hmember, hflaw, hrule⟩ := hx
  obtain ⟨hmember', hflaw', hrule'⟩ := hy
  obtain ⟨-, hm⟩ := mem_members.mp hmember
  obtain ⟨-, hm'⟩ := mem_members.mp hmember'
  obtain ⟨holder, hkeeps, hpiece⟩ := Program.exists_holder (Program.mem_methods_of_method? hm) hflaw
  obtain ⟨holder', hkeeps', hpiece'⟩ :=
    Program.exists_holder (Program.mem_methods_of_method? hm') hflaw'
  obtain ⟨rfl, hsame⟩ := Prod.mk.inj (List.inj_on_of_nodup_map hnodes hpiece hpiece' h)
  obtain rfl : m = m' := Program.eq_of_id_eq hm hm' (Program.id_eq_of_keeps hclasses hkeeps hkeeps')
  obtain rfl : flaw = flaw' := hflaw.eq_of_piece hflaw' (hrule.trans hrule'.symm) hsame
  rfl

end RuleContext

/-! ## One finding for every flaw -/

namespace Findings

/-- No message about a target is there twice. -/
def Distinct (f : Findings) :
    Prop := f.list.Pairwise fun g h => ¬ (g.target = h.target ∧ g.message = h.message)

theorem Distinct.register {f : Findings} (h : f.Distinct) (r : Remark) :
    (f.register r).Distinct := by
  unfold Findings.register
  split
  · exact h
  · rename_i hnew
    refine List.pairwise_append.mpr ⟨h, List.pairwise_singleton _ _, ?_⟩
    intro g hg g' hg' hsame
    rw [List.mem_singleton] at hg'
    subst hg'
    exact hnew (has_iff.mpr ⟨g, hg, hsame⟩)

theorem Distinct.registerAll {f : Findings} (h : f.Distinct) (rs : List Remark) :
    (f.registerAll rs).Distinct := by
  induction rs generalizing f with
  | nil => exact h
  | cons r rs ih => exact ih (h.register r)

end Findings

namespace RuleKind

theorem nodup_check (ctx : RuleContext) (rule : RuleKind) : (rule.check ctx).Nodup := by
  have hempty : Findings.Distinct { rule, kernel := ctx.kernel.id } := List.Pairwise.nil
  refine (hempty.registerAll (rule.remarks ctx)).imp ?_
  rintro g h hne rfl
  exact hne ⟨rfl, rfl⟩

/-- **The findings of a syntactic rule and the flaws of the members correspond one to one**, if the
pieces of the program have identities of their own and no class is declared twice in bodies. The
rule reports nothing twice, each of its findings is that on one flaw, and each flaw has its
finding. -/
theorem bijOn_flaws (c : Config) (p : Program) (kernel : Method) (hnodes : p.nodes.Nodup)
    (hclasses : (p.localClasses.map (·.2)).Nodup) (rule : RuleKind)
    (hrule : rule ∈ [.throw, .assert, .dataType]) :
    (rule.check (.ofKernel c p kernel)).Nodup ∧
      Set.BijOn (RuleContext.ofKernel c p kernel).findingOn
        ((RuleContext.ofKernel c p kernel).flaws rule)
        {f | f ∈ rule.check (.ofKernel c p kernel)} := by
  set ctx := RuleContext.ofKernel c p kernel
  have hflaw : ∀ f ∈ rule.check ctx, ∃ x ∈ ctx.flaws rule, ctx.findingOn x = f := by
    intro f hf
    obtain ⟨hremark, hfrule, hkernel⟩ := remark_of_finding hf
    obtain ⟨x, hx, hsame⟩ := (RuleContext.mem_remarks hrule).mp hremark
    refine ⟨x, hx, ?_⟩
    rw [RuleContext.findingOn, ← hsame, hx.2.2, ← hfrule, ← hkernel]
  refine ⟨nodup_check ctx rule, ?_, ?_, ?_⟩
  · intro x hx
    obtain ⟨f, hf, -, htarget, -⟩ :=
      finding_of_remark ((RuleContext.mem_remarks hrule).mpr ⟨x, hx, rfl⟩)
    obtain ⟨y, hy, rfl⟩ := hflaw f hf
    obtain rfl := RuleContext.eq_of_node hnodes hclasses hy hx (Target.node.inj htarget)
    exact hf
  · intro x hx y hy hsame
    have htarget : (ctx.findingOn x).target = (ctx.findingOn y).target := by rw [hsame]
    exact RuleContext.eq_of_node hnodes hclasses hx hy (Target.node.inj htarget)
  · intro f hf
    exact hflaw f hf

/-- A kernel with a helper. The flaws of the kernel stand in its head, in a loop, and in a lambda in
a `finally` block. -/
def flawedKernel : Program :=
  (Program.empty.addSource ⟨"K.java"⟩ "class K {
    static void k(float[] a) throws Error {
      for (Object o : a) { try { throw null; } finally { a[0] = () -> { class L { long[][] f; } assert h(); }; } } }
    static boolean h() { throw null; } }" .project).2.resolve

theorem bijOn_flaws_flawedKernel : ∃ kernel, flawedKernel.method? ⟨0⟩ = some kernel ∧
    flawedKernel.nodes.Nodup ∧
    (flawedKernel.localClasses.map (·.2)).Nodup ∧
      [throw, assert, dataType].map
        (fun rule => (rule.check (.ofKernel (.ofPreset .balanced) flawedKernel kernel)).length) =
          [4, 1, 2] ∧
      ∀ rule ∈ [throw, assert, dataType],
        (rule.check (.ofKernel (.ofPreset .balanced) flawedKernel kernel)).Nodup ∧
        Set.BijOn (RuleContext.ofKernel (.ofPreset .balanced) flawedKernel kernel).findingOn
          ((RuleContext.ofKernel (.ofPreset .balanced) flawedKernel kernel).flaws rule)
          {f | f ∈ rule.check (.ofKernel (.ofPreset .balanced) flawedKernel kernel)} := by
  have hfacts : flawedKernel.nodes.Nodup ∧ (flawedKernel.localClasses.map (·.2)).Nodup ∧
      (flawedKernel.method? ⟨0⟩).map (fun kernel => [throw, assert, dataType].map
        fun rule => (rule.check (.ofKernel (.ofPreset .balanced) flawedKernel kernel)).length) =
          some [4, 1, 2] := by
    decide +kernel
  obtain ⟨hnodes, hclasses, hcounts⟩ := hfacts
  obtain ⟨kernel, hkernel, hcounts⟩ := Option.map_eq_some_iff.mp hcounts
  exact ⟨kernel, hkernel, hnodes, hclasses, hcounts, bijOn_flaws _ _ kernel hnodes hclasses⟩

end RuleKind

end KernelLint
