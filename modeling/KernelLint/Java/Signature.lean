import KernelLint.Java.Tree
import KernelLint.Program.Basic
import KernelLint.Types.Written

/-!
# Signatures in trees

What a declaration says about itself: types, modifiers, annotations and parameters. Reading a tree
gives new identities to syntax nodes, so it goes on inside a program.
-/

namespace KernelLint.Java

/-- Something built inside a program. -/
abbrev Build := StateM Program

/-! ## Nodes -/

def anchorAt (span : Span) : Build Anchor :=
  modifyGet fun p =>
    let (node, p) := p.freshNode
    (⟨node, span⟩, p)

def anchorOf (t : Tree) : Build Anchor := anchorAt t.span

/-- A new node with place and text of a tree. -/
def excerptOf (t : Tree) : Build Excerpt := do
  return ⟨← anchorOf t, t.text⟩

/-! ## Types -/

/-- A type as it is written. -/
def typeUseOf (t : Tree) : Build TypeUse := do
  return ⟨← anchorOf t, ErasedType.ofWritten t.text⟩

/-- A type that is not written. -/
def unknownTypeAt (span : Span) : Build TypeUse := do
  return ⟨← anchorAt span, ErasedType.unknown⟩

/-- The type of a tree if there is one, and else an unknown type in place of its parent. -/
def typeUseOrUnknown (type : Option Tree) (parent : Tree) : Build TypeUse :=
  match type with
  | some t => typeUseOf t
  | none => unknownTypeAt parent.span

/-- The number of opening brackets in the text of a tree. -/
def bracketsIn (t : Tree) : Nat := Text.countChar '[' t.text

/-- The dimensions a declaration adds after its name. -/
def extraDims (t : Tree) : Nat := ((t.child? .dimensions).map bracketsIn).getD 0

/-- A type with further dimensions. -/
def moreDims (u : TypeUse) (n : Nat) : TypeUse := { u with type := u.type.addDims n }

/-- The text of the child in a part, empty if there is none. -/
def partText (t : Tree) (r : Role) : String := ((t.child? r).map Tree.text).getD ""

def nameOf (t : Tree) : String := partText t .name

/-! ## Modifiers and annotations -/

def isMarking (t : Tree) : Bool := t.isOneOf [.markerUse, .annotatedUse]

/-- The name and place of an annotation. -/
def markingOf (t : Tree) : AnnotationUse := ⟨nameOf t, t.span⟩

def modifierTrees (t : Tree) : List Tree :=
  ((t.childOf? .modifiers).map Tree.children).getD []

def modifiersOf (t : Tree) : Modifiers :=
  Modifiers.ofKeywords (((modifierTrees t).filter (!isMarking ·)).map Tree.text)

def markingsOf (t : Tree) : List AnnotationUse :=
  ((modifierTrees t).filter isMarking).map markingOf

mutual

/-- The annotations in a tree from left to right, outside the bodies of classes and of other
annotations. -/
def Tree.markings : Tree → List Tree
  | .leaf .. => []
  | .node r k cs =>
    if k = .markerUse || k = .annotatedUse then [.node r k cs]
    else if k = .classBody then []
    else markingsList cs

def Tree.markingsList : List Tree → List Tree
  | [] => []
  | t :: rest => t.markings ++ markingsList rest

end

/-- The annotations on the parameters and in the body of a method. -/
def innerMarkings (t : Tree) : List AnnotationUse :=
  let inside := [Role.parameters, Role.body].filterMap t.child?
  (Tree.markingsList inside).map markingOf

/-! ## Parameters -/

/-- Type and name of a parameter that takes any number of arguments: the type has one more
dimension. -/
def spreadOf (t : Tree) : Build (TypeUse × String) := do
  let type := t.parts.find? fun c => !c.isOneOf [.modifiers, .variableDeclarator]
  let declarator := t.childOf? .variableDeclarator
  let found ← typeUseOrUnknown type t
  return (if type.isSome then moreDims found 1 else found, (declarator.map nameOf).getD "")

def parameterOf (t : Tree) : Build Parameter := do
  if t.isNode .spreadParameter then
    let (type, name) ← spreadOf t
    return { name, type, span := t.span }
  else
    let type ← typeUseOrUnknown (t.child? .type) t
    return { name := nameOf t, type := moreDims type (extraDims t), span := t.span }

/-- Is the tree a parameter that arguments are given for? -/
def isParameter (t : Tree) : Bool := t.isOneOf [.formalParameter, .spreadParameter]

def parametersOf (t : Tree) : Build (List Parameter) :=
  match t.child? .parameters with
  | some ps => (ps.parts.filter isParameter).mapM parameterOf
  | none => pure []

def throwsOf (t : Tree) : Build (List TypeUse) :=
  match t.childOf? .throwsClause with
  | some c => c.parts.mapM typeUseOf
  | none => pure []

/-- The result type of a method; a constructor has none. -/
def resultOf (t : Tree) : Build (Option TypeUse) :=
  match t.isNode .constructorDecl, t.child? .type with
  | false, some type => do return some (moreDims (← typeUseOf type) (extraDims t))
  | _, _ => pure none

end KernelLint.Java
