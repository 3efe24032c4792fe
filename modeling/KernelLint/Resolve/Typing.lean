import KernelLint.Resolve.Member

/-!
# Types during resolution

The static type of an expression whose names are resolved already. The types of local variables are
kept on the side, since the body they stand in is not yet part of the program.
-/

namespace KernelLint

/-- A program under resolution with the types of the local variables met so far, latest first. -/
structure Resolution where
  program : Program
  localTypes : List (NodeId × ErasedType) := []
  deriving Inhabited

/-- The numeric types from narrow to wide. -/
def numericTypes : List String := ["int", "long", "float", "double"]

def stringClass : String := "java.lang.String"

/-- The type of an operator's result from those of its operands: a string if one of them is, else
the wider number, else the left one. -/
def ErasedType.combine (left right : ErasedType) : ErasedType :=
  if left.name = stringClass || right.name = stringClass then ⟨stringClass, 0⟩
  else match numericTypes.idxOf? left.name, numericTypes.idxOf? right.name with
    | some l, some r => if l < r then right else left
    | _, _ => left

def truthOperators : List String := ["==", "!=", "<", ">", "<=", ">=", "&&", "||"]

namespace Resolution

def localType? (s : Resolution) (node : NodeId) : Option ErasedType :=
  s.localTypes.lookup node

def targetType? (s : Resolution) : Declaration → Option ErasedType
  | .localVar node => s.localType? node
  | .parameter m i => (s.program.method? m).bind fun m => m.params[i]?.map (·.type.type)
  | .field id => (s.program.field? id).map (·.type.type)
  | .type id => (s.program.class? id).map (·.type)
  | .method _ => none

/-- The type of `this`, or of `super`, in a class. -/
def selfType? (s : Resolution) (owner : Option ClassId) (isSuper : Bool) : Option ErasedType :=
  (owner.bind s.program.class?).bind fun c =>
    if isSuper then c.superName.map (⟨·, 0⟩) else some c.type

def typeOf? (s : Resolution) (owner : Option ClassId) : Expr → Option ErasedType
  | .literal _ kind => kind.type?
  | .self _ isSuper => s.selfType? owner isSuper
  | .name _ _ _ (some target) => s.targetType? target
  | .name _ id (some qualifier) none =>
    if id = "length" then
      (s.typeOf? owner qualifier).bind fun t => if 0 < t.dims then some ⟨"int", 0⟩ else none
    else none
  | .name _ _ none none => none
  | .call _ _ _ _ target => (target.bind s.program.method?).bind fun m => m.result.map (·.type)
  | .create _ type _ _ => some type.type
  | .cast _ type _ => some type.type
  | .paren _ inner => s.typeOf? owner inner
  | .assign _ _ target _ => s.typeOf? owner target
  | .unary _ op operand _ => if op = "!" then some ⟨"boolean", 0⟩ else s.typeOf? owner operand
  | .binary _ op left right =>
    if truthOperators.contains op then some ⟨"boolean", 0⟩
    else (s.typeOf? owner left).map fun l =>
      match s.typeOf? owner right with
      | some r => l.combine r
      | none => l
  | .conditional _ _ whenTrue _ => s.typeOf? owner whenTrue
  | .index _ array _ => (s.typeOf? owner array).bind ErasedType.entry?
  | .newArray _ element _ _ => element.map (·.type)
  | .lambda .. => none
  | .other .. => none

end Resolution

end KernelLint
