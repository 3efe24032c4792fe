import KernelLint.Resolve.Target

/-!
# Bodies

Resolution of a body from top to bottom. A declaration is in scope from its end to the end of the
region around it: a block, a branch, a loop, a protected block with its resources, a handler, a
lambda, or the statements of a switch. Everything but types and targets stays as it is.
-/

namespace KernelLint

namespace Resolve

/-- The type use with its name qualified in the program as it is now. -/
def qualifyUse (u : TypeUse) (site : Site) : Resolve TypeUse := do
  return (← get).program.qualifyUse u site

/-- The type of a variable declared with `var`, and the declared type of any other. -/
def inferType (declared : TypeUse) (inferred : Option ErasedType) : TypeUse :=
  if declared.type.name = "var" then { declared with type := inferred.getD ErasedType.unknown }
  else declared

/-- Bring a variable into scope under its qualified type. -/
def declare (head : Anchor) (name : String) (type : TypeUse) (init : Option Expr) (names : Names)
    (site : Site) : Resolve (Local × Names) := do
  let type ← qualifyUse type site
  modify fun s => { s with localTypes := (head.node, type.type) :: s.localTypes }
  return (.mk head name type init, (name, .localVar head.node) :: names)

def typeOfOption (e : Option Expr) (site : Site) : Resolve (Option ErasedType) := do
  return e.bind ((← get).typeOf? site.owner)

/-- Bring variables without initializers into scope. -/
def declareAll (site : Site) : List Local → Names → Resolve (List Local × Names)
  | [], names => pure ([], names)
  | .mk head name type init :: rest, names => do
    let (l, names) ← declare head name type init names site
    let (ls, names) ← declareAll site rest names
    return (l :: ls, names)

variable (site : Site)

mutual

def expr (names : Names) : Expr → Resolve Expr
  | .literal head kind => pure (.literal head kind)
  | .self head isSuper => pure (.self head isSuper)
  | .name head id qualifier _ => do
    let qualifier ← exprOption names qualifier
    return .name head id qualifier (← nameTarget id qualifier head.text names site)
  | .call head id qualifier args _ => do
    let qualifier ← exprOption names qualifier
    let args ← exprs names args
    return .call head id qualifier args (← callTarget id qualifier args.length site)
  | .create head type args _ => do
    let type ← qualifyUse type site
    let args ← exprs names args
    return .create head type args ((← get).program.findConstructor? type.type args.length)
  | .paren head inner => do return .paren head (← expr names inner)
  | .unary head op operand isPre => do return .unary head op (← expr names operand) isPre
  | .binary head op left right => do return .binary head op (← expr names left) (← expr names right)
  | .conditional head condition whenTrue whenFalse => do
    return .conditional head (← expr names condition) (← expr names whenTrue)
      (← expr names whenFalse)
  | .cast head type operand => do
    let type ← qualifyUse type site
    return .cast head type (← expr names operand)
  | .assign head op target value => do
    return .assign head op (← expr names target) (← expr names value)
  | .index head array position => do
    return .index head (← expr names array) (← expr names position)
  | .newArray head element sizes entries => do
    let element ← element.mapM (qualifyUse · site)
    return .newArray head element (← exprs names sizes) (← exprs names entries)
  | .lambda head params body => do
    let (params, inner) ← declareAll site params names
    let (body, _) ← stmt inner body
    return .lambda head params body
  | .other head children => do return .other head (← exprs names children)

def exprs (names : Names) : List Expr → Resolve (List Expr)
  | [] => pure []
  | e :: rest => do
    let e ← expr names e
    return e :: (← exprs names rest)

def exprOption (names : Names) : Option Expr → Resolve (Option Expr)
  | none => pure none
  | some e => do return some (← expr names e)

/-- Resolve a statement and answer the names in scope after it. -/
def stmt (names : Names) : Stmt → Resolve (Stmt × Names)
  | .declare head locals => do
    let (locals, names) ← declared names locals
    return (.declare head locals, names)
  | .eval head e => do return (.eval head (← expr names e), names)
  | .raise head e => do return (.raise head (← expr names e), names)
  | .block head inner => do
    let (inner, _) ← stmts names inner
    return (.block head inner, names)
  | .branch head condition whenTrue whenFalse => do
    let condition ← expr names condition
    let (whenTrue, _) ← stmt names whenTrue
    let (whenFalse, _) ← stmtOption names whenFalse
    return (.branch head condition whenTrue whenFalse, names)
  | .loop head init condition update body => do
    let (init, inner) ← stmts names init
    let condition ← exprOption inner condition
    let update ← exprs inner update
    let (body, _) ← stmt inner body
    return (.loop head init condition update body, names)
  | .forEach head (.mk itemHead name type init) iterable body => do
    let iterable ← expr names iterable
    let entry := ((← get).typeOf? site.owner iterable).bind ErasedType.entry?
    let (item, inner) ← declare itemHead name (inferType type entry) init names site
    let (body, _) ← stmt inner body
    return (.forEach head item iterable body, names)
  | .ret head value => do return (.ret head (← exprOption names value), names)
  | .attempt head resources body clauses last => do
    let (resources, inner) ← stmts names resources
    let (body, _) ← stmt inner body
    let clauses ← handlers names clauses
    let (last, names) ← stmtOption names last
    return (.attempt head resources body clauses last, names)
  | .assertion head condition message => do
    let condition ← expr names condition
    return (.assertion head condition (← exprOption names message), names)
  | .localClass head id => pure (.localClass head id, names)
  | .other head inner values => do
    let values ← exprs names values
    let (inner, _) ← stmts names inner
    return (.other head inner values, names)

def stmts (names : Names) : List Stmt → Resolve (List Stmt × Names)
  | [] => pure ([], names)
  | s :: rest => do
    let (s, names) ← stmt names s
    let (rest, names) ← stmts names rest
    return (s :: rest, names)

def stmtOption (names : Names) : Option Stmt → Resolve (Option Stmt × Names)
  | none => pure (none, names)
  | some s => do
    let (s, names) ← stmt names s
    return (some s, names)

/-- Resolve declared variables one after another; each is in scope after its own initializer. -/
def declared (names : Names) : List Local → Resolve (List Local × Names)
  | [] => pure ([], names)
  | .mk head name type init :: rest => do
    let init ← exprOption names init
    let inferred ← typeOfOption init site
    let (l, names) ← declare head name (inferType type inferred) init names site
    let (ls, names) ← declared names rest
    return (l :: ls, names)

/-- Resolve handlers one after another; the caught exception is in scope in its own handler. -/
def handlers (names : Names) : List Handler → Resolve (List Handler)
  | [] => pure []
  | .mk (.mk head name type init) body :: rest => do
    let (param, inner) ← declare head name type init names site
    let (body, _) ← stmt inner body
    return .mk param body :: (← handlers names rest)

end

end Resolve

end KernelLint
