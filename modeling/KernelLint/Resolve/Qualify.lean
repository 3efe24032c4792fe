import KernelLint.Platform.Library
import KernelLint.Program.Basic
import KernelLint.Text.Uppercase

/-!
# Qualified names

The qualified name of a type from the place where its simple name is written. The enclosing classes
and their members come first, then the package, the imports of single types, the classes visible
without an import, and the imports on demand.
-/

namespace KernelLint

/-- The place from which a name is looked up. -/
structure Site where
  file : FileId
  /-- The innermost class around the place. -/
  owner : Option ClassId
  deriving DecidableEq, Inhabited

namespace Program

/-- The classes around a place from the inside out, at most `n`. -/
def enclosingUpTo (p : Program) : Nat → Option ClassId → List ClassId
  | 0, _ => []
  | _ + 1, none => []
  | n + 1, some id => id :: p.enclosingUpTo n ((p.class? id).bind (·.outer))

/-- The classes around a place from the inside out. -/
def enclosing (p : Program) (owner : Option ClassId) : List ClassId :=
  p.enclosingUpTo (p.classes.size + 1) owner

/-- The name as that of an enclosing class or of a member class of one. -/
def qualifyEnclosing? (p : Program) (name : String) (owner : Option ClassId) : Option String :=
  ((p.enclosing owner).filterMap p.class?).findSome? fun c =>
    let nested := c.qualifiedName ++ "." ++ name
    if c.name = name then some c.qualifiedName
    else if p.hasClass nested then some nested
    else none

/-- The file of a place whose enclosing classes all exist. -/
def siteFile? (p : Program) (site : Site) : Option SourceFile :=
  if (p.enclosing site.owner).all fun id => (p.class? id).isSome then p.file? site.file else none

/-- The name as that of a class of the file's package. -/
def qualifyPackage? (p : Program) (name : String) (f : SourceFile) : Option String :=
  let full := match f.package with
    | some package => package ++ "." ++ name
    | none => name
  if p.hasClass full then some full else none

/-- The name by an import of that single type. -/
def qualifySingle? (name : String) (f : SourceFile) : Option String :=
  (f.imports.find? fun i =>
    !i.onDemand && !i.isStatic && Text.lastSegment i.path = name).map (·.path)

/-- The name by an import on demand: of a package with a known class, else of the first package
outside the platform, else of the first one. -/
def qualifyOnDemand? (p : Program) (name : String) (f : SourceFile) : Option String :=
  let packages := (f.imports.filter fun i => i.onDemand && !i.isStatic).map (·.path)
  let full (package : String) : String := package ++ "." ++ name
  ((packages.map full).find? p.hasClass)
  <|> ((packages.find? fun package => !Text.startsWith package "java.").map full)
  <|> (packages.head?.map full)

/-- The qualified name of a simple name. -/
def qualifySimple? (p : Program) (name : String) (site : Site) : Option String :=
  p.qualifyEnclosing? name site.owner
  <|> (p.siteFile? site).bind fun f =>
    p.qualifyPackage? name f
    <|> qualifySingle? name f
    <|> Library.implicitClass? name
    <|> p.qualifyOnDemand? name f

/-- Is the name no name of a class: a primitive type, `void`, an inferred or an unknown type? -/
def isBuiltinName (name : String) : Bool :=
  name = "void" || name = "var" || name = "?" || primitiveNames.contains name

/-- The qualified name of a written type name; a name that nothing is known about is kept. A dotted
name is taken as a nested class when it begins with a capital, and else as qualified already. -/
def qualify (p : Program) (name : String) (site : Site) : String :=
  if isBuiltinName name || p.hasClass name then name
  else match Text.splitFirst? '.' name with
    | some (head, rest) =>
      if Text.startsUppercase head then
        ((p.qualifySimple? head site).map fun q => q ++ "." ++ rest).getD name
      else name
    | none => (p.qualifySimple? name site).getD name

def qualifyType (p : Program) (t : ErasedType) (site : Site) : ErasedType :=
  ⟨p.qualify t.name site, t.dims⟩

def qualifyUse (p : Program) (u : TypeUse) (site : Site) : TypeUse :=
  { u with type := p.qualifyType u.type site }

end Program

end KernelLint
