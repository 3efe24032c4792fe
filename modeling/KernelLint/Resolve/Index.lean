import KernelLint.Resolve.Program
import Mathlib.Data.List.AList

/-!
# The tables of a resolution

A resolution does not search the program for what a name stands for. It keeps tables beside it:
classes by qualified name, methods and fields by class and name. The tables are filled before the
bodies are resolved, the classes before the signatures are qualified and the members after it, and
every stand-in is entered when it is made. The operations here are those of the program with each
search replaced by a look into a table.
-/

namespace KernelLint

/-- Values by class and name. -/
structure MemberTable (α : Type) where
  rows : AList fun _ : ClassId => AList fun _ : String => α := ∅

namespace MemberTable

variable {α : Type}

def find? (t : MemberTable α) (owner : ClassId) (name : String) : Option α :=
  (t.rows.lookup owner).bind (AList.lookup name)

/-- Put another value in the place of the one of a class and name. -/
def update (t : MemberTable α) (owner : ClassId) (name : String) (change : Option α → α) :
    MemberTable α :=
  let row := (t.rows.lookup owner).getD ∅
  ⟨t.rows.insert owner (row.insert name (change (row.lookup name)))⟩

end MemberTable

/-- What a resolution finds by name without a search. -/
structure NameIndex where
  /-- The first class of each qualified name. -/
  classes : AList fun _ : String => ClassId := ∅
  /-- The methods of each class by name, in the order of their creation. -/
  methods : MemberTable (List MethodId) := {}
  /-- The last field of each class by name. -/
  fields : MemberTable FieldId := {}
  stubFile : Option FileId := none

namespace NameIndex

/-- Enter a class, unless there is one of its name already. -/
def enterClass (ix : NameIndex) (qualifiedName : String) (id : ClassId) : NameIndex :=
  if (ix.classes.lookup qualifiedName).isSome then ix
  else { ix with classes := ix.classes.insert qualifiedName id }

/-- Enter a method after the others of its name. -/
def enterMethod (ix : NameIndex) (owner : ClassId) (name : String) (id : MethodId) : NameIndex :=
  { ix with methods := ix.methods.update owner name fun ids => ids.getD [] ++ [id] }

/-- Enter a field in the place of the one of its name. -/
def enterField (ix : NameIndex) (owner : ClassId) (name : String) (id : FieldId) : NameIndex :=
  { ix with fields := ix.fields.update owner name fun _ => id }

/-- Enter all classes of a program, and its file of stand-ins. -/
def enterClasses (ix : NameIndex) (p : Program) : NameIndex :=
  p.classes.toList.foldl (fun ix c => ix.enterClass c.qualifiedName c.id)
    { ix with stubFile := p.stubFile? }

/-- Enter a method that belongs to a class. -/
def enterOwned (ix : NameIndex) (m : Method) : NameIndex :=
  match m.owner with
  | some owner => ix.enterMethod owner m.name m.id
  | none => ix

/-- Enter the fields that a class lists. -/
def enterFieldsOf (ix : NameIndex) (p : Program) (c : TypeDecl) : NameIndex :=
  (c.fields.filterMap p.field?).foldl (fun ix f => ix.enterField c.id f.name f.id) ix

/-- Enter all members of a program: the methods, then the fields. -/
def enterMembers (ix : NameIndex) (p : Program) : NameIndex :=
  p.classes.toList.foldl (·.enterFieldsOf p) (p.methods.foldl enterOwned ix)

/-- The methods of a class by name, in the order of their creation. -/
def candidates (ix : NameIndex) (owner : ClassId) (name : String) : List MethodId :=
  (ix.methods.find? owner name).getD []

end NameIndex

/-- A program under resolution with its tables. -/
structure IndexedProgram where
  program : Program
  index : NameIndex

namespace IndexedProgram

/-- The program with qualified signatures and its tables, before any body is resolved. -/
def start (p : Program) : IndexedProgram :=
  let ix := ({} : NameIndex).enterClasses p
  let p := p.qualifySignatures
  ⟨p, ix.enterMembers p⟩

/-! ## Stand-ins -/

def stubFile (s : IndexedProgram) : FileId × IndexedProgram :=
  match s.index.stubFile with
  | some id => (id, s)
  | none =>
    let (id, p) := s.program.addFile Program.stubPath none [] .library
    (id, ⟨p, { s.index with stubFile := some id }⟩)

def stubClass (s : IndexedProgram) (qualifiedName : String) : ClassId × IndexedProgram :=
  match s.index.classes.lookup qualifiedName with
  | some id => (id, s)
  | none =>
    let (file, s) := s.stubFile
    let (id, p) := s.program.addClass (Program.standInClass qualifiedName file)
    (id, ⟨p, s.index.enterClass qualifiedName id⟩)

def classByName (s : IndexedProgram) (qualifiedName : String) : Option ClassId × IndexedProgram :=
  match s.index.classes.lookup qualifiedName with
  | some id => (some id, s)
  | none =>
    if Text.isDotted qualifiedName then
      let (id, s) := s.stubClass qualifiedName
      (some id, s)
    else (none, s)

def addStubMethod (s : IndexedProgram) (owner : ClassId) (name : String) (arity : Nat) :
    MethodId × IndexedProgram :=
  let (file, s) := match s.program.class? owner with
    | some c => (c.file, s)
    | none => s.stubFile
  let (id, p) := s.program.addStubMethodIn file owner name arity
  (id, ⟨p, s.index.enterMethod owner name id⟩)

def stubMethod (s : IndexedProgram) (owner : ClassId) (name : String) (arity : Nat) :
    MethodId × IndexedProgram :=
  let fits (id : MethodId) : Bool := (s.program.method? id).any (·.params.length = arity)
  match (s.index.candidates owner name).find? fits with
  | some id => (id, s)
  | none => s.addStubMethod owner name arity

def addStubField (s : IndexedProgram) (owner : ClassId) (name : String) (type : ErasedType) :
    FieldId × IndexedProgram :=
  let (id, p) := s.program.addStubField owner name type
  (id, ⟨p, s.index.enterField owner name id⟩)

/-! ## Members -/

def superClass? (s : IndexedProgram) (id : ClassId) : Option ClassId :=
  ((s.program.class? id).bind (·.superName)).bind s.index.classes.lookup

def findFieldUpTo (s : IndexedProgram) (name : String) : Nat → ClassId → Option FieldId
  | 0, _ => none
  | n + 1, id => s.index.fields.find? id name <|> (s.superClass? id).bind (s.findFieldUpTo name n)

def findField? (s : IndexedProgram) (id : ClassId) (name : String) : Option FieldId :=
  s.findFieldUpTo name Program.chainLimit id

/-- The method among some for a number of arguments; if none accepts it, the first one. -/
def pickByArity (s : IndexedProgram) (ids : List MethodId) (arity : Nat) : Option MethodId :=
  ids.find? (fun id => (s.program.method? id).any (·.acceptsArity arity)) <|> ids.head?

def outsideSuperName? (s : IndexedProgram) (id : ClassId) : Option String :=
  ((s.program.class? id).bind (·.superName)).filter fun n =>
    (s.index.classes.lookup n).isNone && Text.isDotted n

def findMethodUpTo (name : String) (arity : Nat) :
    Nat → ClassId → IndexedProgram → Option MethodId × IndexedProgram
  | 0, _, s => (none, s)
  | n + 1, id, s =>
    match s.pickByArity (s.index.candidates id name) arity with
    | some m => (some m, s)
    | none =>
      if s.program.isLibraryClass id then
        let (m, s) := s.stubMethod id name arity
        (some m, s)
      else match s.outsideSuperName? id with
        | some superName =>
          let (c, s) := s.stubClass superName
          let (m, s) := s.stubMethod c name arity
          (some m, s)
        | none =>
          match s.superClass? id with
          | some c => findMethodUpTo name arity n c s
          | none => (none, s)

def findMethodIn (s : IndexedProgram) (id : ClassId) (name : String) (arity : Nat) :
    Option MethodId × IndexedProgram :=
  findMethodUpTo name arity Program.chainLimit id s

def objectMethod (s : IndexedProgram) (name : String) (arity : Nat) :
    Option MethodId × IndexedProgram :=
  if Library.isObjectMethod name then
    let (c, s) := s.stubClass Library.objectClass
    let (m, s) := s.stubMethod c name arity
    (some m, s)
  else (none, s)

def findConstructor? (s : IndexedProgram) (type : ErasedType) (arity : Nat) : Option MethodId :=
  (s.index.classes.lookup type.name).bind fun id =>
    (s.program.class? id).bind fun c =>
      (s.index.candidates id c.name).find? fun m =>
        (s.program.method? m).any fun m => m.isConstructor && m.acceptsArity arity

end IndexedProgram

end KernelLint
