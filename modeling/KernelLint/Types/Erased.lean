import KernelLint.Text.Cut

/-!
# Erased types

A type without its generic arguments: a name, qualified where that is known, and a number of array
dimensions. Two names stand for special cases: `?` for a type nobody knows and `void`.
-/

namespace KernelLint

def primitiveNames : List String :=
  ["int", "boolean", "double", "long", "char", "float", "byte", "short"]

/-- A type name and its array dimensions. -/
structure ErasedType where
  name : String
  dims : Nat := 0
  deriving DecidableEq, Inhabited

namespace ErasedType

/-- The type that was neither written nor inferred. -/
def unknown : ErasedType := ⟨"?", 0⟩

/-- The type of methods without a result. -/
def void : ErasedType := ⟨"void", 0⟩

def isUnknown (t : ErasedType) : Bool := t.name = "?"

def isVoid (t : ErasedType) : Bool := t.dims = 0 && t.name = "void"

/-- Is the type at the bottom of the array primitive? -/
def hasPrimitiveElement (t : ErasedType) : Bool := primitiveNames.contains t.name

/-- A primitive type, not an array of them. -/
def isPrimitive (t : ErasedType) : Bool := t.dims = 0 && t.hasPrimitiveElement

/-- The type at the bottom of the array. -/
def element (t : ErasedType) : ErasedType := ⟨t.name, 0⟩

/-- The type of one entry of an array. -/
def entry? (t : ErasedType) : Option ErasedType :=
  if t.dims = 0 then none else some ⟨t.name, t.dims - 1⟩

/-- With `n` further dimensions. -/
def addDims (t : ErasedType) (n : Nat) : ErasedType := ⟨t.name, t.dims + n⟩

def simpleName (t : ErasedType) : String := Text.lastSegment t.name

/-- The full name with its brackets. -/
def render (t : ErasedType) : String := t.name ++ Text.copies "[]" t.dims

/-- The simple name with its brackets. -/
def renderShort (t : ErasedType) : String := t.simpleName ++ Text.copies "[]" t.dims

end ErasedType

end KernelLint
