import KernelLint.Source.Id
import KernelLint.Source.Span
import KernelLint.Types.Erased

/-!
# Method bodies

Expressions, statements and local variables. Every node carries its identity and its span;
expressions also carry their source text. What a name, a call or an object creation denotes is part
of the tree and is filled in by name resolution.
-/

namespace KernelLint

/-- Identity and place of a node. -/
structure Anchor where
  node : NodeId
  span : Span
  deriving DecidableEq, Inhabited

/-- Identity, place and source text of an expression. -/
structure Excerpt extends Anchor where
  text : String
  deriving DecidableEq, Inhabited

/-- A type at a place in the source. -/
structure TypeUse extends Anchor where
  type : ErasedType
  deriving DecidableEq, Inhabited

/-- The sort of a literal. -/
inductive Literal where
  | int | long | float | double | char | string | boolean | null
  deriving DecidableEq, Inhabited

/-- The type of a literal; `null` has none. -/
def Literal.type? : Literal → Option ErasedType
  | .int => some ⟨"int", 0⟩
  | .long => some ⟨"long", 0⟩
  | .float => some ⟨"float", 0⟩
  | .double => some ⟨"double", 0⟩
  | .char => some ⟨"char", 0⟩
  | .string => some ⟨"java.lang.String", 0⟩
  | .boolean => some ⟨"boolean", 0⟩
  | .null => none

/-- What a name can denote. -/
inductive Declaration where
  | method (id : MethodId)
  /-- A parameter of a method, by position. -/
  | parameter (method : MethodId) (index : Nat)
  /-- A local variable of any sort, by its declaring node. -/
  | localVar (node : NodeId)
  | field (id : FieldId)
  | type (id : ClassId)
  deriving DecidableEq, Inhabited

mutual

inductive Expr where
  | literal (head : Excerpt) (kind : Literal)
  /-- `this`, or `super` when `isSuper` holds. -/
  | self (head : Excerpt) (isSuper : Bool)
  /-- A name, possibly qualified. -/
  | name (head : Excerpt) (id : String) (qualifier : Option Expr) (target : Option Declaration)
  | call (head : Excerpt) (id : String) (qualifier : Option Expr) (args : List Expr)
      (target : Option MethodId)
  | create (head : Excerpt) (type : TypeUse) (args : List Expr) (target : Option MethodId)
  | paren (head : Excerpt) (inner : Expr)
  /-- A unary operator before (`isPre`) or after its operand. -/
  | unary (head : Excerpt) (op : String) (operand : Expr) (isPre : Bool)
  | binary (head : Excerpt) (op : String) (left right : Expr)
  | conditional (head : Excerpt) (condition whenTrue whenFalse : Expr)
  | cast (head : Excerpt) (type : TypeUse) (operand : Expr)
  | assign (head : Excerpt) (op : String) (target value : Expr)
  | index (head : Excerpt) (array position : Expr)
  /-- An array creation, or an array initializer when no element type is written. -/
  | newArray (head : Excerpt) (element : Option TypeUse) (sizes entries : List Expr)
  | lambda (head : Excerpt) (params : List Local) (body : Stmt)
  /-- Any other expression, with the expressions inside it. -/
  | other (head : Excerpt) (children : List Expr)

inductive Stmt where
  | declare (head : Anchor) (locals : List Local)
  | eval (head : Anchor) (expr : Expr)
  | block (head : Anchor) (stmts : List Stmt)
  | branch (head : Anchor) (condition : Expr) (whenTrue : Stmt) (whenFalse : Option Stmt)
  /-- The loops with a condition. -/
  | loop (head : Anchor) (init : List Stmt) (condition : Option Expr) (update : List Expr)
      (body : Stmt)
  | forEach (head : Anchor) (item : Local) (iterable : Expr) (body : Stmt)
  | ret (head : Anchor) (value : Option Expr)
  | raise (head : Anchor) (value : Expr)
  | attempt (head : Anchor) (resources : List Stmt) (body : Stmt) (handlers : List Handler)
      (last : Option Stmt)
  | assertion (head : Anchor) (condition : Expr) (message : Option Expr)
  /-- A class declared inside a body; its members are in the program. -/
  | localClass (head : Anchor) (id : ClassId)
  /-- Any other statement, with the statements and expressions inside it. -/
  | other (head : Anchor) (stmts : List Stmt) (exprs : List Expr)

/-- A local variable of any sort: declared, loop, resource, exception or lambda parameter. -/
inductive Local where
  | mk (head : Anchor) (name : String) (type : TypeUse) (init : Option Expr)

inductive Handler where
  | mk (param : Local) (body : Stmt)

end

namespace Local

def anchor : Local → Anchor
  | .mk a _ _ _ => a

def node (l : Local) : NodeId := l.anchor.node

def name : Local → String
  | .mk _ n _ _ => n

def type : Local → TypeUse
  | .mk _ _ t _ => t

def init : Local → Option Expr
  | .mk _ _ _ e => e

end Local

namespace Handler

def param : Handler → Local
  | .mk p _ => p

/-- What is done about it. -/
def body : Handler → Stmt
  | .mk _ b => b

end Handler

namespace Expr

def excerpt : Expr → Excerpt
  | .literal a _ | .self a _ | .name a _ _ _ | .call a _ _ _ _ | .create a _ _ _ | .paren a _
  | .unary a _ _ _ | .binary a _ _ _ | .conditional a _ _ _ | .cast a _ _ | .assign a _ _ _
  | .index a _ _ | .newArray a _ _ _ | .lambda a _ _ | .other a _ => a

def node (e : Expr) : NodeId := e.excerpt.node

def span (e : Expr) : Span := e.excerpt.span

def text (e : Expr) : String := e.excerpt.text

def isCall : Expr → Bool
  | .call .. => true
  | _ => false

def callTarget? : Expr → Option MethodId
  | .call _ _ _ _ target => target
  | _ => none

def nameTarget? : Expr → Option Declaration
  | .name _ _ _ target => target
  | _ => none

/-- The expression inside any parentheses. -/
def strip : Expr → Expr
  | .paren _ e => strip e
  | e => e

end Expr

namespace Stmt

def anchor : Stmt → Anchor
  | .declare a _ | .eval a _ | .block a _ | .branch a _ _ _ | .loop a _ _ _ _ | .forEach a _ _ _
  | .ret a _ | .raise a _ | .attempt a _ _ _ _ | .assertion a _ _ | .localClass a
      _ | .other a _ _ => a

def node (s : Stmt) : NodeId := s.anchor.node

def span (s : Stmt) : Span := s.anchor.span

end Stmt

end KernelLint
