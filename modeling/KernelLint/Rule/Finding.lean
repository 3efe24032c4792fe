import KernelLint.Rule.Kind
import KernelLint.Source.Id
import KernelLint.Source.Span

/-!
# Findings

What a rule has to say about a kernel, and the list in which the findings of one rule about one
kernel are gathered. A list keeps the same message about the same thing once.
-/

namespace KernelLint

/-- What a finding is attached to. -/
inductive Target where
  /-- A statement, an expression or a written type. -/
  | node (id : NodeId)
  | method (id : MethodId)
  deriving DecidableEq, Inhabited

/-- What a rule says, before it is known for which kernel. -/
structure Remark where
  target : Target
  span : Span
  /-- The method whose source holds the target. -/
  method : MethodId
  message : String
  severity : Severity
  deriving DecidableEq, Inhabited

/-- What a rule does at one place: it may make the kernel a problem method, and it makes a
remark. -/
structure Notice where
  flags : Bool
  remark : Remark
  deriving DecidableEq, Inhabited

namespace Notice

/-- The kernel becomes a problem method. -/
def flagging (r : Remark) : Notice := ⟨true, r⟩

/-- Nothing but a remark. -/
def plain (r : Remark) : Notice := ⟨false, r⟩

end Notice

/-- A remark of a rule about a kernel. -/
structure Finding extends Remark where
  rule : RuleKind
  kernel : MethodId
  deriving DecidableEq, Inhabited

/-- The findings of one rule about one kernel. -/
structure Findings where
  rule : RuleKind
  kernel : MethodId
  list : List Finding := []
  deriving DecidableEq

namespace Findings

/-- Is the same message about the same target there already? -/
def has (f : Findings) (r : Remark) : Bool :=
  f.list.any fun g => g.target = r.target && g.message = r.message

/-- Add a remark unless it is there already. -/
def register (f : Findings) (r : Remark) : Findings :=
  if f.has r then f
  else { f with list := f.list ++ [{ r with rule := f.rule, kernel := f.kernel }] }

def registerAll (f : Findings) (rs : List Remark) : Findings :=
  rs.foldl register f

end Findings

end KernelLint
