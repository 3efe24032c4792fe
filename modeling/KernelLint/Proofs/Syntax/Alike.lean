import KernelLint.Syntax.Basic
import Mathlib.Data.List.Forall2
import Mathlib.Data.Option.Basic

/-!
# Bodies that are alike

Two bodies are alike if they differ at most in the names of types and in what names, calls and
object creations denote. Nodes, spans, texts, names, operators and the nesting are the same, and so
are the dimensions of types; only a variable that the first body declares with `var` may have any
type in the second one.
-/

namespace KernelLint

/-- The same place and the same dimensions. -/
structure TypeUse.Alike (u u' : TypeUse) : Prop where
  anchor : u'.toAnchor = u.toAnchor
  dims : u'.type.dims = u.type.dims

/-- The same place, and the same dimensions unless the type was left to be inferred. -/
structure TypeUse.Inferred (u u' : TypeUse) : Prop where
  anchor : u'.toAnchor = u.toAnchor
  dims : u.type.name = "var" ∨ u'.type.dims = u.type.dims

theorem TypeUse.Alike.inferred {u u' : TypeUse} (h : u.Alike u') :
    u.Inferred u' := ⟨h.anchor, .inr h.dims⟩

theorem TypeUse.Inferred.trans_alike {u u' u'' : TypeUse} (h : u.Inferred u') (h' : u'.Alike u'') :
    u.Inferred u'' :=
  ⟨h'.anchor.trans h.anchor, h.dims.imp_right h'.dims.trans⟩

/-- The same variable, of an alike type and with the very same initializer if it has one. -/
inductive Local.Retyped : Local → Local → Prop
  | mk (head : Anchor) (name : String) (init : Option Expr) {type type' : TypeUse}
      (htype : type.Inferred type') :
    Retyped (.mk head name type init) (.mk head name type' init)

mutual

/-- The same expression up to types and targets. -/
inductive Expr.Alike : Expr → Expr → Prop
  | literal (head : Excerpt) (kind : Literal) : Expr.Alike (.literal head kind) (.literal head kind)
  | self (head : Excerpt) (isSuper : Bool) : Expr.Alike (.self head isSuper) (.self head isSuper)
  | name (head : Excerpt) (id : String) {qualifier qualifier' : Option Expr}
      (target target' : Option Declaration)
      (hqualifier : Option.Rel Expr.Alike qualifier qualifier') :
    Expr.Alike (.name head id qualifier target) (.name head id qualifier' target')
  | call (head : Excerpt) (id : String) {qualifier qualifier' : Option Expr}
      {args args' : List Expr}
      (target target' : Option MethodId) (hqualifier : Option.Rel Expr.Alike qualifier qualifier')
      (hargs : List.Forall₂ Expr.Alike args args') :
    Expr.Alike (.call head id qualifier args target) (.call head id qualifier' args' target')
  | create (head : Excerpt) {type type' : TypeUse} {args args' : List Expr}
      (target target' : Option MethodId)
      (htype : type.Alike type') (hargs : List.Forall₂ Expr.Alike args args') :
    Expr.Alike (.create head type args target) (.create head type' args' target')
  | paren (head : Excerpt) {inner inner' : Expr} (hinner : Expr.Alike inner inner') :
    Expr.Alike (.paren head inner) (.paren head inner')
  | unary (head : Excerpt) (op : String) (isPre : Bool) {operand operand' : Expr}
      (hoperand : Expr.Alike operand operand') :
    Expr.Alike (.unary head op operand isPre) (.unary head op operand' isPre)
  | binary (head : Excerpt) (op : String) {left left' right right' : Expr}
      (hleft : Expr.Alike left left')
      (hright : Expr.Alike right right') :
    Expr.Alike (.binary head op left right) (.binary head op left' right')
  | conditional (head : Excerpt) {c c' t t' f f' : Expr} (hcondition : Expr.Alike c c')
      (htrue : Expr.Alike t t')
      (hfalse : Expr.Alike f f') :
    Expr.Alike (.conditional head c t f) (.conditional head c' t' f')
  | cast (head : Excerpt) {type type' : TypeUse} {operand operand' : Expr}
      (htype : type.Alike type')
      (hoperand : Expr.Alike operand operand') :
    Expr.Alike (.cast head type operand) (.cast head type' operand')
  | assign (head : Excerpt) (op : String) {target target' value value' : Expr}
      (htarget : Expr.Alike target target')
      (hvalue : Expr.Alike value value') :
    Expr.Alike (.assign head op target value) (.assign head op target' value')
  | index (head : Excerpt) {array array' position position' : Expr}
      (harray : Expr.Alike array array')
      (hposition : Expr.Alike position position') :
    Expr.Alike (.index head array position) (.index head array' position')
  | newArray (head : Excerpt) {element element' : Option TypeUse}
      {sizes sizes' entries entries' : List Expr}
      (helement : Option.Rel TypeUse.Alike element element')
        (hsizes : List.Forall₂ Expr.Alike sizes sizes')
      (hentries : List.Forall₂ Expr.Alike entries entries') :
    Expr.Alike (.newArray head element sizes entries) (.newArray head element' sizes' entries')
  | lambda (head : Excerpt) {params params' : List Local} {body body' : Stmt}
      (hparams : List.Forall₂ Local.Retyped params params') (hbody : Stmt.Alike body body') :
    Expr.Alike (.lambda head params body) (.lambda head params' body')
  | other (head : Excerpt) {children children' : List Expr}
      (hchildren : List.Forall₂ Expr.Alike children children') :
    Expr.Alike (.other head children) (.other head children')

/-- The same statement up to types and targets. -/
inductive Stmt.Alike : Stmt → Stmt → Prop
  | declare (head : Anchor) {locals locals' : List Local}
      (hlocals : List.Forall₂ Local.Alike locals locals') :
    Stmt.Alike (.declare head locals) (.declare head locals')
  | eval (head : Anchor) {e e' : Expr} (he : Expr.Alike e e') :
      Stmt.Alike (.eval head e) (.eval head e')
  | block (head : Anchor) {inner inner' : List Stmt}
      (hinner : List.Forall₂ Stmt.Alike inner inner') :
    Stmt.Alike (.block head inner) (.block head inner')
  | branch (head : Anchor) {c c' : Expr} {t t' : Stmt} {f f' : Option Stmt}
      (hcondition : Expr.Alike c c')
      (htrue : Stmt.Alike t t') (hfalse : Option.Rel Stmt.Alike f f') :
    Stmt.Alike (.branch head c t f) (.branch head c' t' f')
  | loop (head : Anchor) {init init' : List Stmt} {c c' : Option Expr} {update update' : List Expr}
      {body body' : Stmt} (hinit : List.Forall₂ Stmt.Alike init init')
        (hcondition : Option.Rel Expr.Alike c c')
      (hupdate : List.Forall₂ Expr.Alike update update') (hbody : Stmt.Alike body body') :
    Stmt.Alike (.loop head init c update body) (.loop head init' c' update' body')
  | forEach (head : Anchor) {item item' : Local} {iterable iterable' : Expr} {body body' : Stmt}
      (hitem : item.Retyped item') (hiterable : Expr.Alike iterable iterable')
        (hbody : Stmt.Alike body body') :
    Stmt.Alike (.forEach head item iterable body) (.forEach head item' iterable' body')
  | ret (head : Anchor) {value value' : Option Expr} (hvalue : Option.Rel Expr.Alike value value') :
    Stmt.Alike (.ret head value) (.ret head value')
  | raise (head : Anchor) {e e' : Expr} (he : Expr.Alike e e') :
      Stmt.Alike (.raise head e) (.raise head e')
  | attempt (head : Anchor) {resources resources' : List Stmt} {body body' : Stmt}
      {handlers handlers' : List Handler}
      {last last' : Option Stmt} (hresources : List.Forall₂ Stmt.Alike resources resources')
      (hbody : Stmt.Alike body body') (hhandlers : List.Forall₂ Handler.Alike handlers handlers')
      (hlast : Option.Rel Stmt.Alike last last') :
    Stmt.Alike (.attempt head resources body handlers last)
      (.attempt head resources' body' handlers' last')
  | assertion (head : Anchor) {c c' : Expr} {message message' : Option Expr}
      (hcondition : Expr.Alike c c')
      (hmessage : Option.Rel Expr.Alike message message') :
    Stmt.Alike (.assertion head c message) (.assertion head c' message')
  | localClass (head : Anchor) (id : ClassId) :
      Stmt.Alike (.localClass head id) (.localClass head id)
  | other (head : Anchor) {inner inner' : List Stmt} {values values' : List Expr}
      (hinner : List.Forall₂ Stmt.Alike inner inner')
        (hvalues : List.Forall₂ Expr.Alike values values') :
    Stmt.Alike (.other head inner values) (.other head inner' values')

/-- The same declared variable up to types and targets. -/
inductive Local.Alike : Local → Local → Prop
  | mk (head : Anchor) (name : String) {type type' : TypeUse} {init init' : Option Expr}
      (htype : type.Inferred type') (hinit : Option.Rel Expr.Alike init init') :
    Local.Alike (.mk head name type init) (.mk head name type' init')

/-- The same handler up to types and targets. -/
inductive Handler.Alike : Handler → Handler → Prop
  | mk {param param' : Local} {body body' : Stmt} (hparam : param.Retyped param')
      (hbody : Stmt.Alike body body') :
    Handler.Alike (.mk param body) (.mk param' body')

end

end KernelLint
