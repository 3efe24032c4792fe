import KernelLint.Rule.Context

/-!
# Exceptions and assertions

`throw` and `try` statements, `throws` clauses, and `assert` statements.
-/

namespace KernelLint

def Stmt.isRaise : Stmt → Bool
  | .raise .. => true
  | _ => false

def Stmt.isAttempt : Stmt → Bool
  | .attempt .. => true
  | _ => false

def Stmt.isAssertion : Stmt → Bool
  | .assertion .. => true
  | _ => false

namespace Rule

/-- A remark on each statement of a method that satisfies a test. -/
def onStmts (ctx : RuleContext) (m : Method) (test : Stmt → Bool) (message : String) :
    List Notice :=
  (m.stmts.filter test).map fun s => .flagging (ctx.remark m s.node s.span message .error)

/-- Remarks on `throw` statements, then on `try` statements, then on `throws` clauses. -/
def throw (ctx : RuleContext) : List Notice :=
  ctx.onMembers fun m =>
    onStmts ctx m Stmt.isRaise Message.throwStatement
      ++ onStmts ctx m Stmt.isAttempt Message.tryStatement
      ++ m.throws.map fun t =>
          .flagging (ctx.remark m t.node t.span (Message.throwsClause t.type.render) .error)

def assert (ctx : RuleContext) : List Notice :=
  ctx.onMembers fun m => onStmts ctx m Stmt.isAssertion Message.assertion

end Rule

end KernelLint
