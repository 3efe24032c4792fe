import KernelLint.Resolve.Qualify

/-!
# Stand-ins for library members

Classes, methods and fields of libraries without a source get stand-ins when they are first used.
They have no bodies, and they live in a file of their own unless their class has one.
-/

namespace KernelLint.Program

def stubPath : Path := ⟨"<library>"⟩

/-- The file of the stand-ins, if there is one yet. -/
def stubFile? (p : Program) : Option FileId := (p.fileByPath? stubPath).map (·.id)

/-- The file of the stand-ins, made when there is none. -/
def stubFile (p : Program) : FileId × Program :=
  match p.stubFile? with
  | some id => (id, p)
  | none => p.addFile stubPath none [] .library

/-- The stand-in for a class of a qualified name. -/
def standInClass (qualifiedName : String) (file : FileId) : TypeDecl :=
  { name := Text.lastSegment qualifiedName, qualifiedName, file, modifiers := { isPublic := true } }

/-- The class of a qualified name, with a stand-in for an unknown one. -/
def stubClass (p : Program) (qualifiedName : String) : ClassId × Program :=
  match p.findClass? qualifiedName with
  | some c => (c.id, p)
  | none =>
    let (file, p) := p.stubFile
    p.addClass (standInClass qualifiedName file)

/-- The class of a qualified name, with a stand-in for an unknown one; an undotted name has no
stand-in. -/
def classByName (p : Program) (qualifiedName : String) : Option ClassId × Program :=
  match p.findClass? qualifiedName with
  | some c => (some c.id, p)
  | none =>
    if Text.isDotted qualifiedName then
      let (id, p) := p.stubClass qualifiedName
      (some id, p)
    else (none, p)

/-- The live methods of a class by name, in the order of their creation. -/
def methodsNamed (p : Program) (owner : ClassId) (name : String) : List Method :=
  p.methods.filter fun m => m.owner = some owner && m.name = name

def stubParameter (node : NodeId) (index : Nat) : Parameter :=
  { name := "arg" ++ toString index, type := ⟨⟨node, {}⟩, ErasedType.unknown⟩ }

def stubText (isNative : Bool) (result : ErasedType) (name : String) (params : List Parameter) :
    String :=
  "public " ++ (if isNative then "native " else "") ++ result.render ++ " " ++ name ++ "(" ++
    Text.joinWith ", " (params.map (·.name)) ++ ");"

def stubParameters (p : Program) (arity : Nat) : List Parameter × Program :=
  (List.range arity).foldl (fun (ps, p) i =>
    let (node, p) := p.freshNode
    (ps ++ [stubParameter node i], p)) ([], p)

/-- A stand-in for a method of a class, in a file. -/
def addStubMethodIn (p : Program) (file : FileId) (owner : ClassId) (name : String) (arity : Nat) :
    MethodId × Program :=
  let className := ((p.class? owner).map (·.qualifiedName)).getD ""
  let result := (Library.resultType? className name).getD ErasedType.unknown
  let isNative := Library.isNative className name
  let (params, p) := p.stubParameters arity
  let (node, p) := p.freshNode
  p.addMethod {
    name, owner := some owner, file, params, result := some ⟨⟨node, {}⟩, result⟩
    modifiers := { isPublic := true, isNative }, text := stubText isNative result name params }

/-- A stand-in for a method of a class, in the file of the class. -/
def addStubMethod (p : Program) (owner : ClassId) (name : String) (arity : Nat) :
    MethodId × Program :=
  let (file, p) := match p.class? owner with
    | some c => (c.file, p)
    | none => p.stubFile
  p.addStubMethodIn file owner name arity

/-- A method of a class by name and number of parameters, with a stand-in when there is none. -/
def stubMethod (p : Program) (owner : ClassId) (name : String) (arity : Nat) : MethodId × Program :=
  match (p.methodsNamed owner name).find? (·.params.length = arity) with
  | some m => (m.id, p)
  | none => p.addStubMethod owner name arity

def addStubField (p : Program) (owner : ClassId) (name : String) (type : ErasedType) :
    FieldId × Program :=
  let (node, p) := p.freshNode
  p.addField { name, owner, type := ⟨⟨node, {}⟩, type⟩
               modifiers := { isPublic := true, isStatic := true, isFinal := true } }

end KernelLint.Program
