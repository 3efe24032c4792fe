import KernelLint.Rule.Context

/-!
# Static task graphs

References to static fields of the task-graph type, and task registrations made through something
static: a static method, the class itself, or a static field.
-/

namespace KernelLint.Rule

/-- Does an expression name a static field of the task-graph type? -/
def isStaticGraphField (ctx : RuleContext) (e : Expr) : Bool :=
  match e.nameTarget? with
  | some (.field id) =>
    (ctx.program.field? id).any fun f =>
      f.modifiers.isStatic && f.type.type = ⟨ctx.config.taskGraphType, 0⟩
  | _ => false

def isClassName (e : Expr) : Bool :=
  match e.nameTarget? with
  | some (.type _) => true
  | _ => false

/-- Does a call with this qualifier register a task through something static? -/
def isStaticRegistration (ctx : RuleContext) (qualifier : Option Expr) (callee : Method) : Bool :=
  callee.name = ctx.config.taskMethod
    && ctx.program.classNameOf? callee = some ctx.config.taskGraphType
    && (callee.modifiers.isStatic || qualifier.any isClassName
      || qualifier.any fun q => isStaticGraphField ctx q.strip)

def usesStaticGraph (ctx : RuleContext) : Expr → Bool
  | e@(.name ..) => isStaticGraphField ctx e
  | e@(.call _ _ qualifier _ _) => (ctx.program.callee? e).any (isStaticRegistration ctx qualifier)
  | _ => false

/-- Remarks on every use of static task-graph state. -/
def staticTaskGraph (ctx : RuleContext) : List Notice :=
  ctx.onMembers fun m =>
    (m.exprs.filter (usesStaticGraph ctx)).map fun e =>
      .flagging (ctx.remark m e.node e.span Message.staticTaskGraph .error)

end KernelLint.Rule
