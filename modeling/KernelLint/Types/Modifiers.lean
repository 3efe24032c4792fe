/-!
# Modifiers

The modifier keywords of a declaration that the checks look at.
-/

namespace KernelLint

/-- Which modifier keywords a declaration carries. -/
structure Modifiers where
  isPublic : Bool := false
  isProtected : Bool := false
  isPrivate : Bool := false
  isStatic : Bool := false
  isFinal : Bool := false
  isAbstract : Bool := false
  isNative : Bool := false
  isSynchronized : Bool := false
  deriving DecidableEq, Inhabited

namespace Modifiers

/-- Add a keyword; any other word changes nothing. -/
def add (m : Modifiers) (keyword : String) : Modifiers :=
  if keyword = "public" then { m with isPublic := true }
  else if keyword = "protected" then { m with isProtected := true }
  else if keyword = "private" then { m with isPrivate := true }
  else if keyword = "static" then { m with isStatic := true }
  else if keyword = "final" then { m with isFinal := true }
  else if keyword = "abstract" then { m with isAbstract := true }
  else if keyword = "native" then { m with isNative := true }
  else if keyword = "synchronized" then { m with isSynchronized := true }
  else m

/-- The modifiers among some words. -/
def ofKeywords (words : List String) : Modifiers :=
  words.foldl add {}

/-- The keywords in a fixed order. -/
def keywords (m : Modifiers) : List String :=
  let all := [(m.isPublic, "public"), (m.isProtected, "protected"), (m.isPrivate, "private"),
    (m.isStatic, "static"), (m.isFinal, "final"), (m.isAbstract, "abstract"),
    (m.isNative, "native"), (m.isSynchronized, "synchronized")]
  (all.filter (·.1)).map (·.2)

end Modifiers

end KernelLint
