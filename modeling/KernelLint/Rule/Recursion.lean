import KernelLint.Rule.Context

/-!
# Recursion

A search for call cycles along resolved calls. The path holds the methods being explored; a method
from which no cycle was reached is remembered for the rest of the check.
-/

namespace KernelLint

/-- The methods that a method calls, in the order of the calls. -/
def Program.calleesOf (p : Program) (m : Method) : List Method :=
  m.calls.filterMap p.callee?

namespace Cycle

/-- Try methods in turn until one reaches a cycle. -/
def searchAny (search : List MethodId → Method → Bool × List MethodId) :
    List MethodId → List Method → Bool × List MethodId
  | cleared, [] => (false, cleared)
  | cleared, m :: ms =>
    match search cleared m with
    | (true, cleared) => (true, cleared)
    | (false, cleared) => searchAny search cleared ms

/-- Does following calls from a method come back to a method on the path? Also the methods known to
reach no cycle. `fuel` bounds the length of the path. -/
def search (p : Program) : Nat → List MethodId → List MethodId → Method → Bool × List MethodId
  | 0, _, cleared, _ => (true, cleared)
  | fuel + 1, path, cleared, m =>
    if path.contains m.id then (true, cleared)
    else if cleared.contains m.id then (false, cleared)
    else
      match searchAny (search p fuel (m.id :: path)) cleared (p.calleesOf m) with
      | (true, cleared) => (true, cleared)
      | (false, cleared) => (false, m.id :: cleared)

/-- The search from one method. A path has no method twice, so it is never longer than the
program. -/
def reaches (p : Program) (cleared : List MethodId) (m : Method) : Bool × List MethodId :=
  search p (p.methodSlots.size + 1) [] cleared m

/-- The callees, paired with their callers, that reach a cycle. -/
def recursive (p : Program) : List MethodId → List (Method × Method) → List (Method × Method)
  | _, [] => []
  | cleared, (caller, callee) :: rest =>
    match reaches p cleared callee with
    | (true, cleared) => (caller, callee) :: recursive p cleared rest
    | (false, cleared) => recursive p cleared rest

end Cycle

namespace Rule

/-- A remark on every callee from which a cycle of calls can be reached. -/
def recursion (ctx : RuleContext) : List Notice :=
  let edges := ctx.members.flatMap fun m => (ctx.program.calleesOf m).map fun callee => (m, callee)
  (Cycle.recursive ctx.program [] edges).map fun (caller, callee) =>
    .flagging ⟨.method callee.id, callee.nameSpan, callee.id,
      Message.recursion ++ ctx.program.helperContext caller ctx.kernel, .error⟩

end Rule

end KernelLint
