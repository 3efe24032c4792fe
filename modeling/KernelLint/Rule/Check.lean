import KernelLint.Rule.Call
import KernelLint.Rule.DataType
import KernelLint.Rule.Recursion
import KernelLint.Rule.TaskGraph
import KernelLint.Rule.Trap

/-!
# Running rules
-/

namespace KernelLint.RuleKind

/-- What a rule does about a kernel, one notice after another. -/
def notices (ctx : RuleContext) : RuleKind → List Notice
  | .dataType => Rule.dataType ctx
  | .recursion => Rule.recursion ctx
  | .throw => Rule.throw ctx
  | .systemCall => Rule.systemCall ctx
  | .nonVoidReturn => Rule.nonVoidReturn ctx
  | .staticTaskGraph => Rule.staticTaskGraph ctx
  | .assert => Rule.assert ctx
  | .externalLibrary => Rule.externalLibrary ctx
  | .unresolvableHelper => Rule.unresolvableHelper ctx

/-- What a rule says about a kernel, repetitions included. -/
def remarks (ctx : RuleContext) (rule : RuleKind) : List Remark :=
  (rule.notices ctx).map (·.remark)

def check (ctx : RuleContext) (rule : RuleKind) : List Finding :=
  (Findings.registerAll { rule, kernel := ctx.kernel.id } (rule.remarks ctx)).list

end KernelLint.RuleKind
