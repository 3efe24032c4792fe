import KernelLint.CallGraph.Scope
import KernelLint.Rule.Finding
import KernelLint.Rule.Message

/-!
# What a rule sees

The program, the configuration, the kernel and its scope. Most rules look at every member of the
scope in turn and say of a helper that it is one.
-/

namespace KernelLint

/-- Everything a rule may look at for one kernel. -/
structure RuleContext where
  program : Program
  config : Config
  kernel : Method
  scope : Scope

namespace RuleContext

/-- The live members of the scope, the kernel first. -/
def members (ctx : RuleContext) : List Method :=
  ctx.scope.members.filterMap ctx.program.method?

/-- A remark about a node inside a member of the scope. -/
def remark (ctx : RuleContext) (m : Method) (node : NodeId) (span : Span) (message : String)
    (severity : Severity) : Remark :=
  ⟨.node node, span, m.id, message ++ ctx.program.helperContext m ctx.kernel, severity⟩

/-- What is said on each member in turn. -/
def onMembers {α : Type} (ctx : RuleContext) (say : Method → List α) : List α :=
  ctx.members.flatMap say

end RuleContext

end KernelLint
