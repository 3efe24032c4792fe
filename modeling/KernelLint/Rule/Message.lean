/-!
# Wording of the findings
-/

namespace KernelLint.Message

def recursion : String := "TornadoVM: Recursive calls are not supported"

def throwStatement : String := "TornadoVM: Exceptions cannot be thrown inside a kernel"

def tryStatement : String :=
  "TornadoVM: try/catch is not supported; the catch body is unreachable and exceptions raised in the try body go unhandled"

def nativeCall : String := "TornadoVM: Native method calls are not supported"

def nonVoidReturn : String :=
  "TornadoVM: Kernel entry points must return void; non-void is only valid for inlined helpers"

def staticTaskGraph : String :=
  "TornadoVM: TornadoVM currently does not support static TaskGraph and Tasks"

def assertion : String := "TornadoVM: Assert statement is not supported"

def externalLibrary : String :=
  "TornadoVM: External library calls cannot be analyzed and may not run on the device"

def unsupportedType (type : String) : String :=
  "TornadoVM: Unsupported data type '" ++ type ++ "'"

def restrictedCall (root : String) : String :=
  "TornadoVM: TornadoVM does not support calls into '" ++ root ++ "'"

def throwsClause (exception : String) : String :=
  "TornadoVM: Kernel methods cannot declare thrown exceptions\n" ++ exception

def unresolvableHelper (reason : String) : String :=
  "Helper method cannot be analyzed: " ++ reason

end KernelLint.Message
