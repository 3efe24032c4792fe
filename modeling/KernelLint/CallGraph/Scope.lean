import KernelLint.CallGraph.Inlining
import KernelLint.Config.Basic

/-!
# The scope of a kernel

The methods whose code becomes part of a kernel: the kernel itself and, depth first, the helpers it
calls, down to a bounded depth. Calls that cannot be followed although they should be are kept as
open calls.
-/

namespace KernelLint

/-- A call that cannot be followed. -/
structure OpenCall where
  node : NodeId
  span : Span
  text : String
  /-- The method whose body holds the call. -/
  caller : MethodId
  reason : String
  deriving DecidableEq

/-- A kernel with everything that is inlined into it. -/
structure Scope where
  kernel : MethodId
  /-- The kernel first, then the helpers as they were met, none twice. -/
  members : List MethodId
  openCalls : List OpenCall
  /-- The revision of the program the scope belongs to. -/
  revision : Nat
  deriving DecidableEq

namespace Scope

def contains (s : Scope) (m : MethodId) : Bool := s.members.contains m

/-- The members other than the kernel. -/
def helpers (s : Scope) : List MethodId := s.members.filter (· ≠ s.kernel)

/-- A kernel that calls nothing to be followed. -/
def isSelfContained (s : Scope) : Bool := s.members.length = 1 && s.openCalls.isEmpty

end Scope

/-- The members and open calls met so far. -/
structure Walk where
  members : List MethodId
  openCalls : List OpenCall := []
  deriving DecidableEq

namespace Walk

/-- Note a call that cannot be followed. -/
def note (w : Walk) (caller : MethodId) (call : Expr) (reason : String) : Walk :=
  { w with openCalls := w.openCalls ++ [⟨call.node, call.span, call.text, caller, reason⟩] }

/-- One call of `caller`; `follow` walks the body of a helper that is met for the first time. -/
def visitCall (p : Program) (trusted : String) (follow : Method → Walk → Walk) (caller : Method)
    (w : Walk) (call : Expr) : Walk :=
  match p.callee? call with
  | none => w.note caller.id call ("Cannot resolve method '" ++ call.text ++ "'")
  | some callee =>
    if w.members.contains callee.id then w
    else match p.inlining trusted callee with
      | .followed => follow callee { w with members := w.members ++ [callee.id] }
      | .blocked reason => if p.isProjectMethod callee then w.note caller.id call reason else w
      | .restricted _ => w
      | .intrinsic => w
      | .foreign => w

/-- Walk the calls of a method and of the helpers below it, at most `depth` levels. -/
def collect (p : Program) (trusted : String) : Nat → Method → Walk → Walk
  | 0, _, w => w
  | depth + 1, m, w => m.calls.foldl (visitCall p trusted (collect p trusted depth) m) w

end Walk

/-- The scope of a kernel, computed from scratch. -/
def Program.scopeOf (p : Program) (trusted : String) (depth : Nat) (kernel : Method) : Scope :=
  let w := Walk.collect p trusted depth kernel ⟨[kernel.id], []⟩
  ⟨kernel.id, w.members, w.openCalls, p.revision⟩

/-- What a message about a helper adds; nothing for the kernel itself. -/
def Program.helperContext (p : Program) (m kernel : Method) : String :=
  if m.id = kernel.id then ""
  else " (in helper '" ++ p.displayName m ++ "' inlined into kernel)"

end KernelLint
