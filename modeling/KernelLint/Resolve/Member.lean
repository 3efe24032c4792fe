import KernelLint.Resolve.Stub

/-!
# Members

Fields and methods by name, in a class and in the classes it extends. A chain of extended classes is
followed over a fixed number of classes, so that a cycle does no harm.
-/

namespace KernelLint

/-- Can the method be called with that many arguments? A method whose last parameter is an array and
whose text has an ellipsis takes any number from the one before the last parameter on. -/
def Method.acceptsArity (m : Method) (arity : Nat) : Bool :=
  let declared := m.params.length
  let isOpen := m.params.getLast?.any (0 < ·.type.type.dims) && Text.occursIn "..." m.text
  declared = arity || (isOpen && declared ≤ arity + 1)

namespace Program

/-- The number of classes of a chain of extensions that are looked into. -/
def chainLimit : Nat := 33

/-- The class that a class extends, if the program has it. -/
def superClass? (p : Program) (id : ClassId) : Option ClassId :=
  (((p.class? id).bind (·.superName)).bind p.findClass?).map (·.id)

/-- The last field of a name that a class declares. -/
def ownField? (p : Program) (id : ClassId) (name : String) : Option FieldId :=
  match p.class? id with
  | some c => (((c.fields.filterMap p.field?).filter (·.name = name)).getLast?).map (·.id)
  | none => none

/-- The field of a name in a class or one of the next `n - 1` classes it extends. -/
def findFieldUpTo (p : Program) (name : String) : Nat → ClassId → Option FieldId
  | 0, _ => none
  | n + 1, id =>
    p.ownField? id name <|> (p.superClass? id).bind (p.findFieldUpTo name n)

/-- The field of a name in a class or a class it extends. -/
def findField? (p : Program) (id : ClassId) (name : String) : Option FieldId :=
  p.findFieldUpTo name chainLimit id

/-- Does the class belong to a library? -/
def isLibraryClass (p : Program) (id : ClassId) : Bool :=
  ((p.class? id).bind fun c => p.file? c.file).any (·.origin = .library)

/-- The method among some of one name for a number of arguments; if none accepts it, the first
one. -/
def pickByArity (candidates : List Method) (arity : Nat) : Option Method :=
  candidates.find? (·.acceptsArity arity) <|> candidates.head?

/-- The name of an extended class that is not part of the program but can have a stand-in. -/
def outsideSuperName? (p : Program) (id : ClassId) : Option String :=
  ((p.class? id).bind (·.superName)).filter fun n => !p.hasClass n && Text.isDotted n

/-- The method of a name in a class or one of the next `n - 1` classes it extends. A class of a
library, and one outside the program, is taken to have every method. -/
def findMethodUpTo (name : String) (arity : Nat) :
    Nat → ClassId → Program → Option MethodId × Program
  | 0, _, p => (none, p)
  | n + 1, id, p =>
    match pickByArity (p.methodsNamed id name) arity with
    | some m => (some m.id, p)
    | none =>
      if p.isLibraryClass id then
        let (m, p) := p.stubMethod id name arity
        (some m, p)
      else match p.outsideSuperName? id with
        | some superName =>
          let (c, p) := p.stubClass superName
          let (m, p) := p.stubMethod c name arity
          (some m, p)
        | none =>
          match p.superClass? id with
          | some c => findMethodUpTo name arity n c p
          | none => (none, p)

/-- The method for a call of a name with a number of arguments in a class or a class it extends. -/
def findMethodIn (p : Program) (id : ClassId) (name : String) (arity : Nat) :
    Option MethodId × Program :=
  findMethodUpTo name arity chainLimit id p

/-- The method of a name in the first class of several that yields one. -/
def findMethodAmong (name : String) (arity : Nat) :
    List ClassId → Program → Option MethodId × Program
  | [], p => (none, p)
  | id :: rest, p =>
    match p.findMethodIn id name arity with
    | (some m, p) => (some m, p)
    | (none, p) => findMethodAmong name arity rest p

def objectMethod (p : Program) (name : String) (arity : Nat) : Option MethodId × Program :=
  if Library.isObjectMethod name then
    let (c, p) := p.stubClass Library.objectClass
    let (m, p) := p.stubMethod c name arity
    (some m, p)
  else (none, p)

/-- The class that the first fitting static import of a file takes a member from. -/
def staticImportOwner? (f : SourceFile) (name : String) : Option String :=
  (f.imports.filter (·.isStatic)).findSome? fun i =>
    if i.onDemand then some i.path
    else match Text.splitLast? '.' i.path with
      | some (owner, member) => if member = name then some owner else none
      | none => none

/-- A method that a static import of a file brings in. -/
def staticImportMethod (p : Program) (file : FileId) (name : String) (arity : Nat) :
    Option MethodId × Program :=
  match (p.file? file).bind (staticImportOwner? · name) with
  | none => (none, p)
  | some owner =>
    match p.classByName owner with
    | (none, p) => (none, p)
    | (some c, p) => p.findMethodIn c name arity

/-- The constructor of a type for a number of arguments. -/
def findConstructor? (p : Program) (type : ErasedType) (arity : Nat) : Option MethodId :=
  (p.findClass? type.name).bind fun c =>
    ((p.methodsNamed c.id c.name).find? fun m => m.isConstructor && m.acceptsArity arity).map (·.id)

end Program

end KernelLint
