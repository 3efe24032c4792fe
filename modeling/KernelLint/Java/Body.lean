import KernelLint.Java.Signature

/-!
# Bodies and classes in trees

Reading of expressions, statements and classes. Reading is purely syntactic: types are taken as
written, and nothing is known yet about what a name denotes. A node without a reading of its own
becomes an expression over everything in it.

Every rule reads only what stands strictly below its tree, so a reader for trees of a height is
built from the reader for smaller ones.
-/

namespace KernelLint.Java

/-- How to read the trees below the present one; `owner` is the class around them. -/
structure Reader where
  expr : (owner : ClassId) → Tree → Build Expr
  stmt : (owner : ClassId) → Tree → Build Stmt
  /-- Read a nested class; `within` is the qualified name around it. -/
  type : (outer : Option ClassId) → (within : String) → (isLocal : Bool) → Tree → Build ClassId

/-! ## Kinds -/

def isTypeDecl (t : Tree) : Bool :=
  t.isOneOf [.classDecl, .interfaceDecl, .enumDecl, .recordDecl, .annotationTypeDecl]

/-- Is the tree a statement where statements and other things stand side by side? -/
def isStatement (t : Tree) : Bool :=
  t.isOneOf [.expressionStmt, .labeledStmt, .ifStmt, .whileStmt, .doStmt, .forStmt,
    .enhancedForStmt, .returnStmt, .throwStmt, .tryStmt, .tryWithResources, .assertStmt, .breakStmt,
    .continueStmt, .yieldStmt, .synchronizedStmt, .block, .localDecl, .switchExpr, .classDecl]

namespace Reader

def emptyStmt (t : Tree) : Build Stmt := do
  return .other (← anchorOf t) [] []

/-! ## Expressions -/

variable (r : Reader) (owner : ClassId)

def exprs (ts : List Tree) : Build (List Expr) := ts.mapM (r.expr owner)

def stmts (ts : List Tree) : Build (List Stmt) := ts.mapM (r.stmt owner)

def expr? (t : Option Tree) : Build (Option Expr) := t.mapM (r.expr owner)

def stmt? (t : Option Tree) : Build (Option Stmt) := t.mapM (r.stmt owner)

/-- The expression in a part; an absent one is empty. -/
def exprIn (t : Tree) (part : Role) : Build Expr :=
  match t.child? part with
  | some c => r.expr owner c
  | none => do return .other ⟨← anchorOf t, ""⟩ []

/-- The expressions inside the tree in a part. -/
def exprsIn (t : Tree) (part : Role) : Build (List Expr) :=
  match t.child? part with
  | some c => r.exprs owner c.parts
  | none => pure []

/-- A name with what stands in front of it. -/
def qualified (head : Excerpt) (object member : Option Tree) : Build Expr := do
  return .name head ((member.map Tree.text).getD "") (← r.expr? owner object) none

/-- A parameter of a lambda whose type is not written. -/
def inferredLocal (t : Tree) : Build Local := do
  return .mk (← anchorOf t) t.text (← unknownTypeAt t.span) none

/-- A parameter of a lambda whose type is written. -/
def typedLocal (t : Tree) : Build Local := do
  let p ← parameterOf t
  return .mk (← anchorOf t) p.name p.type none

def lambdaLocals (t : Tree) : Build (List Local) :=
  if t.isName then do return [← inferredLocal t]
  else if t.isNode .inferredParameters then t.parts.mapM inferredLocal
  else (t.parts.filter isParameter).mapM typedLocal

/-- The body of a lambda: a block, or an expression as a statement. -/
def lambdaBody (t : Tree) : Build Stmt :=
  if t.isNode .block then r.stmt owner t
  else do
    let e ← r.expr owner t
    return .eval (← anchorOf t) e

def lambdaExpr (head : Excerpt) (t : Tree) : Build Expr := do
  let params ← match t.child? .parameters with
    | some ps => lambdaLocals ps
    | none => pure []
  let body ← match t.child? .body with
    | some b => r.lambdaBody owner b
    | none => emptyStmt t
  return .lambda head params body

/-- The creation of an array. The dimensions are counted over the whole text of its bracket
pairs. -/
def arrayExpr (head : Excerpt) (t : Tree) : Build Expr := do
  let dims := t.childrenAs .dimensions
  let element ← typeUseOrUnknown (t.child? .type) t
  let element :=
      { element with type := ⟨element.type.name, dims.foldl (fun n d => n + bracketsIn d) 0⟩ }
  let sizes ← r.exprs owner ((dims.filter (·.isNode .dimensionsExpr)).filterMap (·.parts.head?))
  let entries ← r.exprsIn owner t .value
  return .newArray head (some element) sizes entries

/-- An increment or decrement. -/
def updateExpr (head : Excerpt) (t : Tree) : Build Expr :=
  let isStep (c : Tree) : Bool := c.isWord "++" || c.isWord "--"
  let isPre := t.children.head?.any isStep
  match t.parts.head? with
  | some operand => do
    return .unary head (((t.children.find? isStep).map Tree.text).getD "")
      (← r.expr owner operand) isPre
  | none => pure (.other head [])

def nodeExpr (head : Excerpt) (kind : NodeKind) (t : Tree) : Build Expr := do
  match kind with
  | .fieldAccess => r.qualified owner head (t.child? .object) (t.child? .member)
  | .scopedName | .scopedType => r.qualified owner head t.parts.head? t.parts.getLast?
  | .methodCall =>
    return .call head (nameOf t) (← r.expr? owner (t.child? .object))
      (← r.exprsIn owner t .arguments) none
  | .objectCreation =>
    return .create head (← typeUseOrUnknown (t.child? .type) t)
      (← r.exprsIn owner t .arguments) none
  | .paren =>
    match t.parts.head? with
    | some inner => return .paren head (← r.expr owner inner)
    | none => return .other head []
  | .unary => return .unary head (partText t .operator) (← r.exprIn owner t .operand) true
  | .updateExpr => r.updateExpr owner head t
  | .binary =>
    return .binary head (partText t .operator) (← r.exprIn owner t .left)
      (← r.exprIn owner t .right)
  | .ternary =>
    return .conditional head (← r.exprIn owner t .condition) (← r.exprIn owner t .consequence)
      (← r.exprIn owner t .alternative)
  | .cast => return .cast head (← typeUseOrUnknown (t.child? .type) t) (← r.exprIn owner t .value)
  | .assignment =>
    return .assign head (partText t .operator) (← r.exprIn owner t .left)
      (← r.exprIn owner t .right)
  | .arrayAccess => return .index head (← r.exprIn owner t .array) (← r.exprIn owner t .index)
  | .arrayCreation => r.arrayExpr owner head t
  | .arrayInitializer => return .newArray head none [] (← r.exprs owner t.parts)
  | .lambda => r.lambdaExpr owner head t
  | _ => return .other head (← r.exprs owner t.parts)

def exprStep (t : Tree) : Build Expr := do
  let head ← excerptOf t
  match t with
  | .leaf _ (.literal k) _ => return .literal head k
  | .leaf _ .thisWord _ => return .self head false
  | .leaf _ .superWord _ => return .self head true
  | .leaf _ .name tok => return .name head tok.text none none
  | .leaf _ _ _ => return .other head []
  | .node _ kind _ => r.nodeExpr owner head kind t

/-! ## Statements -/

/-- The statement in a part; an absent one is empty. -/
def stmtIn (t : Tree) (part : Role) : Build Stmt :=
  match t.child? part with
  | some c => r.stmt owner c
  | none => emptyStmt t

/-- A declared variable; `base` is the type in front of all variables of the declaration. -/
def declaredLocal (base : TypeUse) (t : Tree) : Build Local := do
  let type : TypeUse := ⟨← anchorAt base.span, base.type.addDims (extraDims t)⟩
  let init ← r.expr? owner (t.child? .value)
  return .mk (← anchorOf t) (nameOf t) type init

def declaredLocals (t : Tree) : Build (List Local) := do
  let base ← typeUseOrUnknown (t.child? .type) t
  (t.childrenAs .declarator).mapM (r.declaredLocal owner base)

/-- A part of the initialisation of a loop. -/
def loopInit (t : Tree) : Build Stmt :=
  if t.isNode .localDecl then r.stmt owner t
  else do
    let e ← r.expr owner t
    return .eval (← anchorOf t) e

/-- A loop over the elements of something. The variable stands at its name. -/
def forEachStmt (t : Tree) : Build Stmt := do
  let type ← typeUseOrUnknown (t.child? .type) t
  let place := ((t.child? .name).map Tree.span).getD t.span
  let item := Local.mk (← anchorAt place) (nameOf t) (moreDims type (extraDims t)) none
  let iterable ← r.exprIn owner t .value
  let body ← r.stmtIn owner t .body
  return .forEach (← anchorOf t) item iterable body

/-- A resource: a declaration, or an expression. -/
def resourceStmt (t : Tree) : Build Stmt := do
  match t.child? .type with
  | some type =>
    let type ← typeUseOf type
    let value ← r.expr? owner (t.child? .value)
    let declared := Local.mk (← anchorOf t) (nameOf t) type value
    return .declare (← anchorOf t) [declared]
  | none =>
    match t.parts.head? with
    | some e => let e ← r.expr owner e; return .eval (← anchorOf t) e
    | none => emptyStmt t

/-- A handler; one without a parameter is dropped. -/
def handlerOf? (t : Tree) : Build (Option Handler) := do
  match t.childOf? .catchParameter with
  | none => return none
  | some param =>
    let caught := (param.childOf? .catchType).bind (·.parts.head?)
    let type ← typeUseOrUnknown caught param
    let caughtLocal := Local.mk (← anchorOf param) (nameOf param) type none
    return some (.mk caughtLocal (← r.stmtIn owner t .body))

/-- A protected block with its resources, handlers and last part. -/
def attemptStmt (t : Tree) : Build Stmt := do
  let resources ← match t.child? .resources with
    | some spec => spec.parts.mapM (r.resourceStmt owner)
    | none => pure []
  let body ← r.stmtIn owner t .body
  let handlers ← (t.parts.filter (·.isNode .catchClause)).mapM (r.handlerOf? owner)
  let last ← r.stmt? owner ((t.childOf? .finallyClause).bind (·.parts.head?))
  return .attempt (← anchorOf t) resources body (handlers.filterMap id) last

/-- What the groups or rules of a switch do; labels are dropped. -/
def switchStmts (t : Tree) : Build (List Stmt) :=
  let entries := ((t.child? .body).map Tree.parts).getD []
  let trees := (entries.flatMap Tree.parts).filter (!·.isNode .switchLabel)
  trees.mapM fun c =>
    if isStatement c then r.stmt owner c
    else do
      let e ← r.expr owner c
      return .eval (← anchorOf c) e

def ownerName (p : Program) : String := ((p.class? owner).map (·.qualifiedName)).getD ""

/-- A statement around its only expression; without one it is empty. -/
def aroundExpr (t : Tree) (make : Anchor → Expr → Stmt) : Build Stmt :=
  match t.parts.head? with
  | some c => do
    let e ← r.expr owner c
    return make (← anchorOf t) e
  | none => emptyStmt t

def nodeStmt (kind : NodeKind) (t : Tree) : Build Stmt := do
  match kind with
  | .block | .constructorBody =>
    let inner ← r.stmts owner t.parts
    return .block (← anchorOf t) inner
  | .expressionStmt => r.aroundExpr owner t .eval
  | .throwStmt => r.aroundExpr owner t .raise
  | .localDecl =>
    let locals ← r.declaredLocals owner t
    return .declare (← anchorOf t) locals
  | .ifStmt =>
    let condition ← r.exprIn owner t .condition
    let whenTrue ← r.stmtIn owner t .consequence
    let whenFalse ← r.stmt? owner (t.child? .alternative)
    return .branch (← anchorOf t) condition whenTrue whenFalse
  | .whileStmt | .doStmt =>
    let condition ← r.expr? owner (t.child? .condition)
    let body ← r.stmtIn owner t .body
    return .loop (← anchorOf t) [] condition [] body
  | .forStmt =>
    let init ← (t.childrenAs .init).mapM (r.loopInit owner)
    let condition ← r.expr? owner (t.child? .condition)
    let update ← r.exprs owner (t.childrenAs .update)
    let body ← r.stmtIn owner t .body
    return .loop (← anchorOf t) init condition update body
  | .enhancedForStmt => r.forEachStmt owner t
  | .returnStmt =>
    let value ← r.expr? owner t.parts.head?
    return .ret (← anchorOf t) value
  | .tryStmt | .tryWithResources => r.attemptStmt owner t
  | .assertStmt =>
    match t.parts with
    | [] => emptyStmt t
    | condition :: rest =>
      let condition ← r.expr owner condition
      let message ← r.expr? owner rest.head?
      return .assertion (← anchorOf t) condition message
  | .classDecl | .interfaceDecl | .enumDecl | .recordDecl | .annotationTypeDecl =>
    let declared ← r.type (some owner) (ownerName owner (← get)) true t
    return .localClass (← anchorOf t) declared
  | .explicitConstructorCall =>
    let args ← r.exprsIn owner t .arguments
    return .other (← anchorOf t) [] args
  | .switchExpr =>
    let condition ← r.exprs owner (t.child? .condition).toList
    let inner ← r.switchStmts owner t
    return .other (← anchorOf t) inner condition
  | .synchronizedStmt | .labeledStmt =>
    let inner ← r.stmts owner (t.parts.filter isStatement)
    let exprs ← r.exprs owner (t.parts.filter (·.isNode .paren))
    return .other (← anchorOf t) inner exprs
  | .error | .breakStmt | .continueStmt => emptyStmt t
  | _ =>
    let exprs ← r.exprs owner t.parts
    return .other (← anchorOf t) [] exprs

/-- A statement; a leaf is a lone semicolon. -/
def stmtStep (t : Tree) : Build Stmt :=
  match t with
  | .leaf .. => emptyStmt t
  | .node _ kind _ => r.nodeStmt owner kind t

/-! ## Classes -/

/-- The components of a record are private final fields. -/
def addComponent (owner : ClassId) (t : Tree) : Build Unit := do
  let p ← parameterOf t
  modify fun program =>
    (program.addField { name := p.name, owner, type := p.type, span := p.span
                        modifiers := { isPrivate := true, isFinal := true } }).2

def addDeclarator (base : ErasedType) (place : Span) (mods : Modifiers) (t : Tree) :
    Build Unit := do
  let init ← r.expr? owner (t.child? .value)
  let type : TypeUse := ⟨← anchorAt place, base.addDims (extraDims t)⟩
  modify fun program =>
    (program.addField { name := nameOf t, owner, type, modifiers := mods, init, span := t.span }).2

def addFields (t : Tree) : Build Unit := do
  let base := ((t.child? .type).map fun c => ErasedType.ofWritten c.text).getD ErasedType.unknown
  let place := ((t.child? .type).map Tree.span).getD {}
  (t.childrenAs .declarator).forM (r.addDeclarator owner base place (modifiersOf t))

/-- Add a method, after everything its body declares. -/
def addMethod (file : FileId) (t : Tree) : Build Unit := do
  let result ← resultOf t
  let params ← parametersOf t
  let throws ← throwsOf t
  let body ← r.stmt? owner (t.child? .body)
  modify fun program =>
    (program.addMethod {
      name := nameOf t, owner := some owner, file, params, result, throws
      modifiers := modifiersOf t
      annotations := markingsOf t, innerAnnotations := innerMarkings t, body, text := t.text
      span := t.span, nameSpan := ((t.child? .name).map Tree.span).getD t.span
      hasErrors := t.hasError }).2

/-- Add a member of a class; whatever is no field, method or class is passed over. -/
def addMember (file : FileId) (within : String) (t : Tree) : Build Unit := do
  if t.isNode .fieldDecl then r.addFields owner t
  else if t.isOneOf [.methodDecl, .constructorDecl] then r.addMethod owner file t
  else if isTypeDecl t then discard (r.type (some owner) within false t)

/-- The members of a body; those of an enum stand after its constants. -/
def memberTrees (body : Tree) : List Tree :=
  body.parts.flatMap fun m => if m.isNode .enumBodyDecls then m.parts else [m]

/-- The sort of class a tree declares. -/
def classKindOf (t : Tree) : ClassKind :=
  match t.nodeKind? with
  | some .interfaceDecl => .interface
  | some .enumDecl => .enum
  | some .recordDecl => .record
  | some .annotationTypeDecl => .annotationType
  | _ => .ordinary

/-- The name of the extended class as it is written. -/
def superNameOf (t : Tree) : Option String :=
  ((t.child? .superclass).bind (·.parts.head?)).map fun c => (ErasedType.ofWritten c.text).name

/-- Add a class and then its members. -/
def typeStep (file : FileId) (outer : Option ClassId) (within : String) (isLocal : Bool)
    (t : Tree) :
    Build ClassId := do
  let name := nameOf t
  let qualifiedName := if within.isEmpty then name else within ++ "." ++ name
  let id ← modifyGet fun p => p.addClass {
    name, qualifiedName, kind := classKindOf t, file, outer, superName := superNameOf t
    modifiers := modifiersOf t, isLocal, span := t.span }
  match t.child? .parameters with
  | some ps => (ps.parts.filter (·.isNode .formalParameter)).forM (addComponent id)
  | none => pure ()
  match t.child? .body with
  | some body => (memberTrees body).forM (r.addMember id file qualifiedName)
  | none => pure ()
  return id

/-! ## All heights -/

/-- The reader of trees below a height, for the classes of a file. -/
def below (file : FileId) : Nat → Reader
  | 0 =>
    { expr := fun _ t => do return .other (← excerptOf t) []
      stmt := fun _ t => emptyStmt t
      type := fun _ _ _ _ => pure ⟨0⟩ }
  | n + 1 =>
    let r := below file n
    { expr := r.exprStep
      stmt := r.stmtStep
      type := r.typeStep file }

/-- The reader that reads a whole tree. -/
def forTree (file : FileId) (t : Tree) : Reader := below file (t.height + 1)

end Reader

end KernelLint.Java
