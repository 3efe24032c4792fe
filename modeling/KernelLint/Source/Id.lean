/-!
# Identities

Files, classes, methods and fields are named by their position in the program; syntax nodes by the
number they were created with.
-/

namespace KernelLint

structure FileId where
  index : Nat
  deriving DecidableEq, Inhabited

structure ClassId where
  index : Nat
  deriving DecidableEq, Inhabited

structure MethodId where
  index : Nat
  deriving DecidableEq, Inhabited

structure FieldId where
  index : Nat
  deriving DecidableEq, Inhabited

structure NodeId where
  index : Nat
  deriving DecidableEq, Inhabited

/-- How a file is shown. -/
def FileId.render (i : FileId) : String := "file#" ++ toString i.index

def ClassId.render (i : ClassId) : String := "class#" ++ toString i.index

def MethodId.render (i : MethodId) : String := "method#" ++ toString i.index

def FieldId.render (i : FieldId) : String := "field#" ++ toString i.index

def NodeId.render (i : NodeId) : String := "node#" ++ toString i.index

end KernelLint
