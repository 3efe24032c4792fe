import KernelLint.Syntax.Basic

/-!
# The declaration of a local variable

Search for the variable that a node declares. Statements stop the search once something is found;
inside one statement the last match counts, and the initializer of a match is not searched.
-/

namespace KernelLint

mutual

/-- Search an expression; `found` is what the search has so far. -/
def Expr.searchLocal (id : NodeId) (found : Option Local) : Expr → Option Local
  | .literal .. => found
  | .self .. => found
  | .name _ _ qualifier _ => Expr.searchLocalOption id found qualifier
  | .call _ _ qualifier args _ =>
    Expr.searchLocalList id (Expr.searchLocalOption id found qualifier) args
  | .create _ _ args _ => Expr.searchLocalList id found args
  | .paren _ e => e.searchLocal id found
  | .unary _ _ e _ => e.searchLocal id found
  | .binary _ _ l r => r.searchLocal id (l.searchLocal id found)
  | .conditional _ c t f => f.searchLocal id (t.searchLocal id (c.searchLocal id found))
  | .cast _ _ e => e.searchLocal id found
  | .assign _ _ t v => v.searchLocal id (t.searchLocal id found)
  | .index _ a i => i.searchLocal id (a.searchLocal id found)
  | .newArray _ _ sizes entries =>
    Expr.searchLocalList id (Expr.searchLocalList id found sizes) entries
  | .lambda _ params body => body.searchLocal id (Local.searchList id found params)
  | .other _ children => Expr.searchLocalList id found children

def Expr.searchLocalOption (id : NodeId) (found : Option Local) : Option Expr → Option Local
  | none => found
  | some e => e.searchLocal id found

def Expr.searchLocalList (id : NodeId) (found : Option Local) : List Expr → Option Local
  | [] => found
  | e :: es => Expr.searchLocalList id (e.searchLocal id found) es

/-- Search a statement, unless something is found already. -/
def Stmt.searchLocal (id : NodeId) (found : Option Local) : Stmt → Option Local
  | .declare _ locals => if found.isSome then found else Local.searchList id found locals
  | .eval _ e => if found.isSome then found else e.searchLocal id found
  | .block _ stmts => if found.isSome then found else Stmt.searchLocalList id found stmts
  | .branch _ c t f =>
    if found.isSome then found
    else Stmt.searchLocalOption id (t.searchLocal id (c.searchLocal id found)) f
  | .loop _ init c update body =>
    if found.isSome then found
    else body.searchLocal id (Expr.searchLocalList id
      (Expr.searchLocalOption id (Stmt.searchLocalList id found init) c) update)
  | .forEach _ v iterable body =>
    if found.isSome then found
    else body.searchLocal id (iterable.searchLocal id (v.search id found))
  | .ret _ value => if found.isSome then found else Expr.searchLocalOption id found value
  | .raise _ value => if found.isSome then found else value.searchLocal id found
  | .attempt _ resources body handlers last =>
    if found.isSome then found
    else Stmt.searchLocalOption id (Handler.searchList id
      (body.searchLocal id (Stmt.searchLocalList id found resources)) handlers) last
  | .assertion _ c message =>
    if found.isSome then found else Expr.searchLocalOption id (c.searchLocal id found) message
  | .localClass .. => found
  | .other _ stmts exprs =>
    if found.isSome then found
    else Stmt.searchLocalList id (Expr.searchLocalList id found exprs) stmts

def Stmt.searchLocalOption (id : NodeId) (found : Option Local) : Option Stmt → Option Local
  | none => found
  | some s => s.searchLocal id found

def Stmt.searchLocalList (id : NodeId) (found : Option Local) : List Stmt → Option Local
  | [] => found
  | s :: ss => Stmt.searchLocalList id (s.searchLocal id found) ss

/-- A variable is a match itself, or its initializer is searched. -/
def Local.search (id : NodeId) (found : Option Local) : Local → Option Local
  | l@(.mk a _ _ init) => if a.node = id then some l else Expr.searchLocalOption id found init

def Local.searchList (id : NodeId) (found : Option Local) : List Local → Option Local
  | [] => found
  | l :: ls => Local.searchList id (l.search id found) ls

/-- Search the exception, then the body of a handler. -/
def Handler.search (id : NodeId) (found : Option Local) : Handler → Option Local
  | .mk param body => body.searchLocal id (param.search id found)

def Handler.searchList (id : NodeId) (found : Option Local) : List Handler → Option Local
  | [] => found
  | h :: hs => Handler.searchList id (h.search id found) hs

end

/-- The local variable that node `id` declares in a body. -/
def Stmt.findLocal? (id : NodeId) (s : Stmt) : Option Local :=
  s.searchLocal id none

end KernelLint
