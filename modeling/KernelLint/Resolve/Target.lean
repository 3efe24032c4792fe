import KernelLint.Resolve.Typing
import KernelLint.Text.Blank

/-!
# What names and calls denote

A simple name is looked up in the scope, then among the fields of the enclosing classes, then as a
class. A qualified one is looked up in the class its qualifier stands for. Looking into a library
can add stand-ins to the program.
-/

namespace KernelLint

/-- The names in scope, innermost first. -/
abbrev Names := List (String × Declaration)

/-- Something found while a program is resolved. -/
abbrev Resolve := StateM Resolution

namespace Resolve

/-- Change the program and answer something. -/
def onProgram {α : Type} (f : Program → α × Program) : Resolve α :=
  modifyGet fun s =>
    let (a, p) := f s.program
    (a, { s with program := p })

def classByName (name : String) : Resolve (Option ClassId) :=
  onProgram (·.classByName name)

/-- The class all others extend. -/
def objectClass : Resolve ClassId :=
  onProgram (·.stubClass Library.objectClass)

/-- The class of values of a type. Arrays have the members of every object; primitive and unknown
types have none. -/
def classOfType (t : ErasedType) : Resolve (Option ClassId) := do
  if 0 < t.dims then return some (← objectClass)
  else if t.isPrimitive || t.isUnknown then return none
  else classByName t.name

/-- The class that `super` stands for. -/
def superReceiver (owner : Option ClassId) : Resolve (Option ClassId) := do
  match owner.bind (← get).program.class? with
  | none => return none
  | some c =>
    match c.superName with
    | some name => classByName name
    | none => return some (← objectClass)

/-- The class that a qualifier looks into: the class it names, or the class of its type. -/
def receiver (qualifier : Expr) (owner : Option ClassId) : Resolve (Option ClassId) := do
  match qualifier with
  | .name _ _ _ none => return none
  | .name _ _ _ (some (.type id)) => return some id
  | .self _ true => superReceiver owner
  | _ =>
    match (← get).typeOf? owner qualifier with
    | none => return none
    | some t => classOfType t

/-- A dotted name nothing of which is resolved. -/
def isBareChain : Expr → Bool
  | .name _ _ none none => true
  | .name _ _ (some qualifier) none => isBareChain qualifier
  | _ => false

/-- A simple name as a class. -/
def classNamed (name : String) (site : Site) : Resolve (Option Declaration) := do
  if !Text.startsUppercase name then return none
  match (← get).program.qualifySimple? name site with
  | none => return none
  | some qualified => return (← classByName qualified).map .type

/-- What a simple name denotes. -/
def simpleTarget (name : String) (names : Names) (site : Site) : Resolve (Option Declaration) := do
  let p := (← get).program
  match names.lookup name with
  | some d => return some d
  | none =>
    match (p.enclosing site.owner).findSome? (p.findField? · name) with
    | some f => return some (.field f)
    | none => classNamed name site

/-- A member of a class by name: a field, a known static field of a library, or a nested class. -/
def memberTarget (id : ClassId) (name : String) : Resolve (Option Declaration) := do
  let p := (← get).program
  match p.findField? id name, p.class? id with
  | some f, _ => return some (.field f)
  | none, none => return none
  | none, some c =>
    match Library.staticFieldType? c.qualifiedName name with
    | some type => return some (.field (← onProgram (·.addStubField id name type)))
    | none => return (p.findClass? (c.qualifiedName ++ "." ++ name)).map fun c => .type c.id

/-- What a qualified name denotes. A chain of unresolved names can be the qualified name of a
class. -/
def memberOf (qualifier : Expr) (name text : String) (site : Site) :
    Resolve (Option Declaration) := do
  match ← receiver qualifier site.owner with
  | some id => memberTarget id name
  | none =>
    if isBareChain qualifier && Text.startsUppercase name then
      return (← classByName (Text.squeeze text)).map .type
    else return none

/-- What a name denotes; `text` is how the whole expression is written. -/
def nameTarget (name : String) (qualifier : Option Expr) (text : String) (names : Names)
    (site : Site) :
    Resolve (Option Declaration) :=
  match qualifier with
  | none => simpleTarget name names site
  | some q => memberOf q name text site

/-- The first answer of two. -/
def orElse {α : Type} (first second : Resolve (Option α)) : Resolve (Option α) := do
  match ← first with
  | some a => return some a
  | none => second

def callTarget (name : String) (qualifier : Option Expr) (arity : Nat) (site : Site) :
    Resolve (Option MethodId) := do
  match qualifier with
  | none =>
    let chain := (← get).program.enclosing site.owner
    orElse (onProgram (Program.findMethodAmong name arity chain))
      (orElse (onProgram (·.staticImportMethod site.file name arity))
        (onProgram (·.objectMethod name arity)))
  | some q =>
    match ← receiver q site.owner with
    | none => return none
    | some id =>
      orElse (onProgram (·.findMethodIn id name arity)) (onProgram (·.objectMethod name arity))

end Resolve

end KernelLint
