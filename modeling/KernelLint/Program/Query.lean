import KernelLint.Program.Basic
import KernelLint.Syntax.Lookup

/-!
# Questions about a program

Where a method belongs, what a call denotes, and the static type of an expression as far as the
program can tell.
-/

namespace KernelLint.Program

/-- Is the method declared in a file of the project? -/
def isProjectMethod (p : Program) (m : Method) : Bool :=
  (p.file? m.file).any (·.origin = .project)

def classOf? (p : Program) (m : Method) : Option TypeDecl :=
  m.owner.bind p.class?

/-- The qualified name of the class that declares a method. -/
def classNameOf? (p : Program) (m : Method) : Option String :=
  (p.classOf? m).map (·.qualifiedName)

/-- A method with the simple name of its class. -/
def displayName (p : Program) (m : Method) : String :=
  match p.classOf? m with
  | some c => c.name ++ "." ++ m.name
  | none => m.name

/-- The live method that a call denotes. -/
def callee? (p : Program) (call : Expr) : Option Method :=
  call.callTarget?.bind p.method?

/-- The local variable that a node declares in a method. -/
def local? (m : Method) (id : NodeId) : Option Local :=
  m.body.bind (Stmt.findLocal? id)

/-- The declared type of what a name denotes, seen from method `m`. -/
def declaredType? (p : Program) (m : Method) : Declaration → Option ErasedType
  | .parameter owner index =>
    let holder := if owner = m.id then some m else p.method? owner
    holder.bind fun h => h.params[index]?.map (·.type.type)
  | .localVar node => (local? m node).map (·.type.type)
  | .field id => (p.field? id).map (·.type.type)
  | .type id => (p.class? id).map (·.type)
  | .method _ => none

/-- The static type of an expression in method `m`, when the program can tell. -/
def typeOf? (p : Program) (m : Method) : Expr → Option ErasedType
  | .literal _ kind => kind.type?
  | .self _ _ => (p.classOf? m).map (·.type)
  | .name _ _ _ target => target.bind (p.declaredType? m)
  | .call _ _ _ _ target => (target.bind p.method?).bind fun c => c.result.map (·.type)
  | .create _ type _ _ => some type.type
  | .cast _ type _ => some type.type
  | .paren _ inner => typeOf? p m inner
  | .assign _ _ target _ => typeOf? p m target
  | .newArray _ element _ _ => element.map (·.type)
  | .index _ array _ => (typeOf? p m array).bind ErasedType.entry?
  | .unary .. => none
  | .binary .. => none
  | .conditional .. => none
  | .lambda .. => none
  | .other .. => none

end KernelLint.Program
