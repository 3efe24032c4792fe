import KernelLint.Source.Path
import KernelLint.Syntax.Walk
import KernelLint.Types.Modifiers

/-!
# Files, classes, methods and fields

What a program is made of. Members name the entity they belong to by its identity.
-/

namespace KernelLint

/-- Does a file belong to the project under inspection or to one of its libraries? -/
inductive Origin where
  | project | library
  deriving DecidableEq, Inhabited

structure Import where
  /-- The imported name, or the name before `.*`. -/
  path : String
  isStatic : Bool := false
  onDemand : Bool := false
  deriving DecidableEq, Inhabited

structure SourceFile where
  id : FileId
  path : Path
  package : Option String
  imports : List Import
  /-- The classes that stand in no other class. -/
  classes : List ClassId := []
  origin : Origin
  deriving Inhabited

inductive ClassKind where
  | ordinary | interface | enum | record | annotationType
  deriving DecidableEq, Inhabited

/-- A class of any sort. -/
structure TypeDecl where
  id : ClassId := ⟨0⟩
  name : String
  qualifiedName : String
  kind : ClassKind := .ordinary
  file : FileId
  /-- The enclosing class of a nested or local class. -/
  outer : Option ClassId := none
  /-- The name of the extended class. -/
  superName : Option String := none
  modifiers : Modifiers := {}
  methods : List MethodId := []
  fields : List FieldId := []
  nested : List ClassId := []
  /-- Declared inside a method body? -/
  isLocal : Bool := false
  span : Span := {}
  deriving Inhabited

/-- The type a class declares. -/
def TypeDecl.type (c : TypeDecl) : ErasedType := ⟨c.qualifiedName, 0⟩

/-- An annotation at a place in the source. -/
structure AnnotationUse where
  name : String
  span : Span := {}
  deriving DecidableEq, Inhabited

structure Parameter where
  name : String
  type : TypeUse
  span : Span := {}
  deriving DecidableEq, Inhabited

/-- A method or constructor. -/
structure Method where
  id : MethodId := ⟨0⟩
  name : String
  owner : Option ClassId
  file : FileId
  params : List Parameter := []
  /-- Absent for constructors. -/
  result : Option TypeUse := none
  throws : List TypeUse := []
  modifiers : Modifiers := {}
  annotations : List AnnotationUse := []
  /-- Annotations on parameters and inside the body. -/
  innerAnnotations : List AnnotationUse := []
  body : Option Stmt := none
  /-- The source text of the declaration. -/
  text : String
  span : Span := {}
  nameSpan : Span := {}
  hasErrors : Bool := false
  deriving Inhabited

namespace Method

/-- Constructors have no result type. -/
def isConstructor (m : Method) : Bool := m.result.isNone

def isNative (m : Method) : Bool := m.modifiers.isNative

/-- Does the method return nothing? A constructor does not count. -/
def returnsVoid (m : Method) : Bool := m.result.any (·.type.isVoid)

/-- The position of the first parameter of a name. -/
def paramIndex? (m : Method) (name : String) : Option Nat :=
  m.params.findIdx? (·.name = name)

def visits (m : Method) : List Visit :=
  Stmt.visitsOption m.body

def exprs (m : Method) : List Expr :=
  m.visits.filterMap Visit.expr?

def calls (m : Method) : List Expr :=
  m.visits.filterMap Visit.call?

def stmts (m : Method) : List Stmt :=
  m.visits.filterMap Visit.stmt?

def locals (m : Method) : List Local :=
  m.visits.filterMap Visit.localVar?

end Method

structure Field where
  id : FieldId := ⟨0⟩
  name : String
  owner : ClassId
  type : TypeUse
  modifiers : Modifiers := {}
  init : Option Expr := none
  span : Span := {}
  deriving Inhabited

end KernelLint
