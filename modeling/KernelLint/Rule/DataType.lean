import KernelLint.Rule.Context

/-!
# Types the device cannot hold

The types of parameters, of local variables of every sort and of the fields of local classes.
-/

namespace KernelLint.Rule

/-- The types declared at one stop of the walk. -/
def typesAt (p : Program) : Visit → List TypeUse
  | .localVar l => [l.type]
  | .localClass id =>
    match p.class? id with
    | some c => (c.fields.filterMap p.field?).map (·.type)
    | none => []
  | .stmt _ => []
  | .expr _ => []

/-- The types declared by a method and in its body. -/
def declaredTypes (p : Program) (m : Method) : List TypeUse :=
  m.params.map (·.type) ++ m.visits.flatMap (typesAt p)

/-- A remark for every declared type that the device cannot hold. -/
def dataType (ctx : RuleContext) : List Notice :=
  ctx.onMembers fun m =>
    ((declaredTypes ctx.program m).filter fun t => !ctx.config.supports t.type).map fun t =>
      .flagging (ctx.remark m t.node t.span (Message.unsupportedType t.type.renderShort) .error)

end KernelLint.Rule
