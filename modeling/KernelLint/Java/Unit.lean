import KernelLint.Java.Body

/-!
# Source files in trees

The syntax tree of a source text becomes a file of the program: its package, its imports and its
classes. The tree can be any tree: errors in it do not keep the rest from being read, and a method
that contains one is marked.
-/

namespace KernelLint.Java

/-- Is the tree a name, simple or dotted? -/
def isDottedName (t : Tree) : Bool := t.isName || t.isNode .scopedName

/-- The name inside a package or import declaration. -/
def namedIn (t : Tree) : Option String := (t.children.find? isDottedName).map Tree.text

/-- The package a file belongs to; of several declarations the last one counts. -/
def packageOf (root : Tree) : Option String :=
  ((root.parts.filter (·.isNode .packageDecl)).getLast?).bind namedIn

def importOf? (t : Tree) : Option Import :=
  (namedIn t).map fun path =>
    { path
      isStatic := t.children.any (·.isWord "static")
      onDemand := t.children.any fun c => c matches .leaf _ .wild _ }

def importsOf (root : Tree) : List Import :=
  (root.parts.filter (·.isNode .importDecl)).filterMap importOf?

/-- Add the classes of a file that stand in no other class. -/
def addTypes (file : FileId) (package : Option String) (root : Tree) : Build Unit :=
  let r := Reader.forTree file root
  (root.parts.filter isTypeDecl).forM fun t => discard (r.type none (package.getD "") false t)

end KernelLint.Java

namespace KernelLint.Program

open Java

/-- Add the syntax tree of a source text as a file. Nothing in it is resolved yet. -/
def addTree (p : Program) (path : Path) (root : Tree) (origin : Origin) : FileId × Program :=
  let package := packageOf root
  let (file, p) := p.addFile path package (importsOf root) origin
  (file, ((addTypes file package root).run p).2)

end KernelLint.Program
