import KernelLint.Syntax.Basic

/-!
# Walking a body

The nodes of a body in pre-order: every node before the nodes inside it, children in the order in
which a reader of the analyses meets them. Collectors are filters of this list.
-/

namespace KernelLint

/-- A stop of the walk. -/
inductive Visit where
  | stmt (s : Stmt)
  | expr (e : Expr)
  | localVar (l : Local)
  | localClass (id : ClassId)

mutual

/-- The walk of an expression. -/
def Expr.visits : Expr → List Visit
  | e@(.literal ..) => [.expr e]
  | e@(.self ..) => [.expr e]
  | e@(.name _ _ qualifier _) => .expr e :: Expr.visitsOption qualifier
  | e@(.call _ _ qualifier args _) =>
    .expr e :: (Expr.visitsOption qualifier ++ Expr.visitsList args)
  | e@(.create _ _ args _) => .expr e :: Expr.visitsList args
  | e@(.paren _ inner) => .expr e :: inner.visits
  | e@(.unary _ _ operand _) => .expr e :: operand.visits
  | e@(.binary _ _ left right) => .expr e :: (left.visits ++ right.visits)
  | e@(.conditional _ c t f) => .expr e :: (c.visits ++ t.visits ++ f.visits)
  | e@(.cast _ _ operand) => .expr e :: operand.visits
  | e@(.assign _ _ target value) => .expr e :: (target.visits ++ value.visits)
  | e@(.index _ array position) => .expr e :: (array.visits ++ position.visits)
  | e@(.newArray _ _ sizes entries) =>
    .expr e :: (Expr.visitsList sizes ++ Expr.visitsList entries)
  | e@(.lambda _ params body) => .expr e :: (Local.visitsList params ++ body.visits)
  | e@(.other _ children) => .expr e :: Expr.visitsList children

def Expr.visitsOption : Option Expr → List Visit
  | none => []
  | some e => e.visits

def Expr.visitsList : List Expr → List Visit
  | [] => []
  | e :: es => e.visits ++ Expr.visitsList es

/-- The walk of a statement. -/
def Stmt.visits : Stmt → List Visit
  | s@(.declare _ locals) => .stmt s :: Local.visitsList locals
  | s@(.eval _ e) => .stmt s :: e.visits
  | s@(.block _ stmts) => .stmt s :: Stmt.visitsList stmts
  | s@(.branch _ c t f) => .stmt s :: (c.visits ++ t.visits ++ Stmt.visitsOption f)
  | s@(.loop _ init c update body) =>
    .stmt s :: (Stmt.visitsList init ++ Expr.visitsOption c ++ Expr.visitsList update ++
      body.visits)
  | s@(.forEach _ v iterable body) => .stmt s :: (v.visits ++ iterable.visits ++ body.visits)
  | s@(.ret _ value) => .stmt s :: Expr.visitsOption value
  | s@(.raise _ value) => .stmt s :: value.visits
  | s@(.attempt _ resources body handlers last) =>
    .stmt s :: (Stmt.visitsList resources ++ body.visits ++ Handler.visitsList handlers
      ++ Stmt.visitsOption last)
  | s@(.assertion _ c message) => .stmt s :: (c.visits ++ Expr.visitsOption message)
  | s@(.localClass _ id) => [.stmt s, .localClass id]
  | s@(.other _ stmts exprs) => .stmt s :: (Expr.visitsList exprs ++ Stmt.visitsList stmts)

def Stmt.visitsOption : Option Stmt → List Visit
  | none => []
  | some s => s.visits

def Stmt.visitsList : List Stmt → List Visit
  | [] => []
  | s :: ss => s.visits ++ Stmt.visitsList ss

/-- The walk of a local variable: itself, then its initializer. -/
def Local.visits : Local → List Visit
  | l@(.mk _ _ _ init) => .localVar l :: Expr.visitsOption init

def Local.visitsList : List Local → List Visit
  | [] => []
  | l :: ls => l.visits ++ Local.visitsList ls

/-- The walk of an exception handler. -/
def Handler.visits : Handler → List Visit
  | .mk param body => param.visits ++ body.visits

def Handler.visitsList : List Handler → List Visit
  | [] => []
  | h :: hs => h.visits ++ Handler.visitsList hs

end

namespace Visit

/-- The expression met, if it is one. -/
def expr? : Visit → Option Expr
  | .expr e => some e
  | _ => none

def stmt? : Visit → Option Stmt
  | .stmt s => some s
  | _ => none

def localVar? : Visit → Option Local
  | .localVar l => some l
  | _ => none

def call? (v : Visit) : Option Expr :=
  v.expr?.filter Expr.isCall

end Visit

end KernelLint
