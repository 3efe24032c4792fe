import KernelLint.Text.Alphanumeric
import KernelLint.Text.Blank
import KernelLint.Types.Erased

/-!
# Types as written

Erasure of a written type, character by character: annotations, generic arguments and white space
are dropped; a bracket and a variable-arity ellipsis each add a dimension.
-/

namespace KernelLint

/-- State of the erasure of a written type. -/
structure Erasure where
  /-- Open angle brackets. -/
  depth : Nat := 0
  /-- Dimensions counted so far. -/
  dims : Nat := 0
  /-- Inside the name of an annotation? -/
  inMark : Bool := false
  /-- Characters still to be dropped after the first dot of an ellipsis. -/
  swallow : Nat := 0
  /-- The name so far, last character first. -/
  name : List Char := []
  deriving DecidableEq, Inhabited

namespace Erasure

/-- Can `c` belong to the name of an annotation? -/
def isMarkChar (c : Char) : Bool :=
  Text.isAlphanumeric c || c = '_' || c = '.'

/-- One character outside annotations and ellipses; `next` is the one after it. -/
def step (e : Erasure) (c : Char) (next : Option Char) : Erasure :=
  let e := { e with inMark := false }
  if c = '<' then { e with depth := e.depth + 1 }
  else if c = '>' then { e with depth := e.depth - 1 }
  else if 0 < e.depth then e
  else if c = '@' then { e with inMark := true }
  else if c = '[' then { e with dims := e.dims + 1 }
  else if c = ']' then e
  else if c = '.' ∧ next = some '.' then { e with dims := e.dims + 1, swallow := 2 }
  else if Text.isBlank c then e
  else { e with name := c :: e.name }

/-- All characters of a written type. -/
def run : Erasure → List Char → Erasure
  | e, [] => e
  | e, c :: rest =>
    if 0 < e.swallow then run { e with swallow := e.swallow - 1 } rest
    else if e.inMark && isMarkChar c then run e rest
    else run (e.step c rest.head?) rest

/-- The type read: an empty name is the unknown type. -/
def result (e : Erasure) : ErasedType :=
  if e.name.isEmpty then ErasedType.unknown else ⟨String.ofList e.name.reverse, e.dims⟩

end Erasure

/-- The erasure of a written type. -/
def ErasedType.ofWritten (text : String) : ErasedType :=
  (({} : Erasure).run text.toList).result

end KernelLint
