import KernelLint.Rule.Context

/-!
# Calls that leave the kernel

Calls of native methods and of restricted interfaces, calls into libraries, and calls that could not
be followed.
-/

namespace KernelLint.Rule

/-- The calls of a method with the methods they denote. -/
def resolvedCalls (p : Program) (m : Method) : List (Expr × Method) :=
  m.calls.filterMap fun call => (p.callee? call).map fun callee => (call, callee)

/-- Remarks on a call of a native method or of a restricted interface; both may apply. -/
def systemCall (ctx : RuleContext) : List Notice :=
  ctx.onMembers fun m =>
    (resolvedCalls ctx.program m).flatMap fun (call, callee) =>
      let native :=
        if callee.isNative then
          [.flagging (ctx.remark m call.node call.span Message.nativeCall .error)]
        else []
      let restricted :=
        match (ctx.program.classNameOf? callee).bind Restricted.ofClass? with
        | some family =>
          [.flagging
            (ctx.remark m call.node call.span (Message.restrictedCall family.root) .error)]
        | none => []
      native ++ restricted

/-- What the names of placeholder classes begin with. -/
def placeholderRoot : String := "_Dummy_"

/-- Is a class part of a library about which nothing is known? -/
def isExternal (c : Config) (className : String) : Bool :=
  !(Text.startsWith className "java." || c.isTrusted className
    || Text.startsWith className placeholderRoot)

/-- Remarks on calls into libraries. -/
def externalLibrary (ctx : RuleContext) : List Notice :=
  ctx.onMembers fun m =>
    ((resolvedCalls ctx.program m).filter fun (_, callee) =>
      !ctx.program.isProjectMethod callee
        && (ctx.program.classNameOf? callee).any (isExternal ctx.config)).map fun (call, _) =>
      .flagging (ctx.remark m call.node call.span Message.externalLibrary .warning)

/-- Remarks on the open calls of the scope, which do not flag the kernel. -/
def unresolvableHelper (ctx : RuleContext) : List Notice :=
  ctx.scope.openCalls.map fun c =>
    .plain ⟨.node c.node, c.span, c.caller, Message.unresolvableHelper c.reason, .weakWarning⟩

/-- A remark on the result type of the kernel itself, unless it is `void`. It does not flag the
kernel. -/
def nonVoidReturn (ctx : RuleContext) : List Notice :=
  match ctx.kernel.result with
  | none => []
  | some t =>
    if t.type.isVoid then []
    else [.plain ⟨.node t.node, t.span, ctx.kernel.id, Message.nonVoidReturn, .warning⟩]

end KernelLint.Rule
