import KernelLint.Program.Entity
import KernelLint.Program.Numbering

/-!
# Programs

A program owns its files, classes, methods and fields, and counts its edits. Every entity is named
by its position; a removed method leaves an empty slot, so that no identity is ever given twice. The
program also hands out the identities of syntax nodes.
-/

namespace KernelLint

/-- Files, classes, methods and fields with the number of edits made so far. Each of them stands at
the position that its identity names. -/
structure Program where
  files : Array SourceFile := #[]
  classes : Array TypeDecl := #[]
  /-- Removed methods leave `none`. -/
  methodSlots : Array (Option Method) := #[]
  fields : Array Field := #[]
  /-- Grows by one with every edit. -/
  revision : Nat := 0
  /-- The number of syntax nodes created so far. -/
  nodeCount : Nat := 0
  files_numbered : Numbered (fun i f => f.id = ⟨i⟩) files := by exact .empty
  classes_numbered : Numbered (fun i c => c.id = ⟨i⟩) classes := by exact .empty
  slots_numbered : Numbered (fun i slot => ∀ m ∈ slot, m.id = ⟨i⟩) methodSlots := by exact .empty
  fields_numbered : Numbered (fun i f => f.id = ⟨i⟩) fields := by exact .empty

namespace Program

/-- The program without files. -/
def empty : Program := {}

instance : Inhabited Program := ⟨empty⟩

/-! ## Looking things up -/

def file? (p : Program) (id : FileId) : Option SourceFile := p.files[id.index]?

def class? (p : Program) (id : ClassId) : Option TypeDecl := p.classes[id.index]?

/-- A live method by identity. -/
def method? (p : Program) (id : MethodId) : Option Method := p.methodSlots[id.index]?.join

def field? (p : Program) (id : FieldId) : Option Field := p.fields[id.index]?

/-- The live methods in the order of their creation. -/
def methods (p : Program) : List Method := p.methodSlots.toList.filterMap id

/-- The live methods of a file. -/
def methodsOf (p : Program) (file : FileId) : List Method :=
  p.methods.filter (·.file = file)

/-- The first class of a qualified name. -/
def findClass? (p : Program) (qualifiedName : String) : Option TypeDecl :=
  p.classes.toList.find? (·.qualifiedName = qualifiedName)

/-- Does the program declare a class of that qualified name? -/
def hasClass (p : Program) (qualifiedName : String) : Bool :=
  (p.findClass? qualifiedName).isSome

/-- The first live method of a name in the first class of a qualified name. -/
def findMethod? (p : Program) (className name : String) : Option Method :=
  (p.findClass? className).bind fun c =>
    (c.methods.filterMap p.method?).find? (·.name = name)

def fileByPath? (p : Program) (path : Path) : Option SourceFile :=
  p.files.toList.find? (·.path.same path)

/-! ## Building -/

/-- Count an edit. -/
def bump (p : Program) : Program := { p with revision := p.revision + 1 }

/-- A new identity for a syntax node. -/
def freshNode (p : Program) : NodeId × Program :=
  (⟨p.nodeCount⟩, { p with nodeCount := p.nodeCount + 1 })

/-- Change a file in place; it keeps its identity. -/
def modifyFile (p : Program) (id : FileId) (f : SourceFile → SourceFile) : Program :=
  { p with
    files := p.files.modify id.index fun x => { f x with id := x.id }
    files_numbered := p.files_numbered.modify (fun _ _ h => by exact h) _ }

/-- Change a class in place; it keeps its identity. -/
def modifyClass (p : Program) (id : ClassId) (f : TypeDecl → TypeDecl) : Program :=
  { p with
    classes := p.classes.modify id.index fun x => { f x with id := x.id }
    classes_numbered := p.classes_numbered.modify (fun _ _ h => by exact h) _ }

/-- Change a live method in place; it keeps its identity. -/
def modifyMethod (p : Program) (id : MethodId) (f : Method → Method) : Program :=
  { p with
    methodSlots := p.methodSlots.modify id.index (Option.map fun x => { f x with id := x.id })
    slots_numbered := p.slots_numbered.modify (fun _ _ h => by simpa using h) _ }

/-- Change a field in place; it keeps its identity. -/
def modifyField (p : Program) (id : FieldId) (f : Field → Field) : Program :=
  { p with
    fields := p.fields.modify id.index fun x => { f x with id := x.id }
    fields_numbered := p.fields_numbered.modify (fun _ _ h => by exact h) _ }

/-- Take a method out of its slot. -/
def clearSlot (p : Program) (id : MethodId) : Program :=
  { p with
    methodSlots := p.methodSlots.modify id.index fun _ => none
    slots_numbered := p.slots_numbered.modify (fun _ _ _ => by simp) _ }

/-- Put a file at the end, under the identity of its position. -/
def pushFile (p : Program) (f : SourceFile) : Program :=
  { p with
    files := p.files.push { f with id := ⟨p.files.size⟩ }
    files_numbered := p.files_numbered.push rfl }

/-- Put a class at the end, under the identity of its position. -/
def pushClass (p : Program) (c : TypeDecl) : Program :=
  { p with
    classes := p.classes.push { c with id := ⟨p.classes.size⟩ }
    classes_numbered := p.classes_numbered.push rfl }

/-- Put a method at the end, under the identity of its position. -/
def pushMethod (p : Program) (m : Method) : Program :=
  { p with
    methodSlots := p.methodSlots.push (some { m with id := ⟨p.methodSlots.size⟩ })
    slots_numbered := p.slots_numbered.push (by simp) }

/-- Put a field at the end, under the identity of its position. -/
def pushField (p : Program) (f : Field) : Program :=
  { p with
    fields := p.fields.push { f with id := ⟨p.fields.size⟩ }
    fields_numbered := p.fields_numbered.push rfl }

def addFile (p : Program) (path : Path) (package : Option String) (imports : List Import)
    (origin : Origin) : FileId × Program :=
  let id : FileId := ⟨p.files.size⟩
  (id, (p.pushFile { id, path, package, imports, origin }).bump)

/-- Link a class to its enclosing class, or to its file when it has none. -/
def linkClass (p : Program) (id : ClassId) (c : TypeDecl) : Program :=
  match c.outer with
  | some outer => p.modifyClass outer fun o => { o with nested := o.nested ++ [id] }
  | none => p.modifyFile c.file fun f => { f with classes := f.classes ++ [id] }

/-- Add a class and link it. -/
def addClass (p : Program) (c : TypeDecl) : ClassId × Program :=
  let id : ClassId := ⟨p.classes.size⟩
  (id, ((p.linkClass id c).pushClass c).bump)

/-- Add a field and link it to its class. -/
def addField (p : Program) (f : Field) : FieldId × Program :=
  let id : FieldId := ⟨p.fields.size⟩
  let linked := p.modifyClass f.owner fun c => { c with fields := c.fields ++ [id] }
  (id, (linked.pushField f).bump)

/-- Change the list of methods of the class that declares a method. -/
def relinkMethod (p : Program) (m : Method) (change : List MethodId → List MethodId) : Program :=
  match m.owner with
  | some owner => p.modifyClass owner fun c => { c with methods := change c.methods }
  | none => p

/-- Add a method and link it to its class. -/
def addMethod (p : Program) (m : Method) : MethodId × Program :=
  let id : MethodId := ⟨p.methodSlots.size⟩
  (id, ((p.relinkMethod m (· ++ [id])).pushMethod m).bump)

end Program

end KernelLint
