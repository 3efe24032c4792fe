import KernelLint.Types.Erased

/-!
# The platform library

What is known of the library that every program can use without its source: the classes that need no
import, the methods that are implemented outside the language, some result types and static fields,
and the methods every object has.
-/

namespace KernelLint.Library

/-- The class all others extend. -/
def objectClass : String := "java.lang.Object"

def implicitClasses : List String :=
  ["Object", "String", "StringBuilder", "StringBuffer", "System", "Runtime", "Process",
   "ProcessBuilder", "Thread", "Math", "StrictMath", "Integer", "Long", "Short", "Byte", "Float",
   "Double", "Character", "Boolean", "Number", "Class", "Iterable", "Runnable", "Comparable",
   "CharSequence", "Throwable", "Exception", "Error", "RuntimeException",
   "IllegalArgumentException", "IllegalStateException", "ArithmeticException",
   "ArrayIndexOutOfBoundsException", "IndexOutOfBoundsException", "NullPointerException",
   "UnsupportedOperationException", "InterruptedException", "ClassCastException",
   "CloneNotSupportedException", "Override", "Deprecated", "SuppressWarnings",
   "FunctionalInterface", "SafeVarargs", "Void"]

/-- The qualified name of a class visible without an import. -/
def implicitClass? (name : String) : Option String :=
  if implicitClasses.contains name then some ("java.lang." ++ name) else none

/-- The methods implemented outside the language, as class and name. -/
def nativeMethods : List (String × String) :=
  [("java.lang.System", "arraycopy"), ("java.lang.System", "nanoTime"),
   ("java.lang.System", "currentTimeMillis"), ("java.lang.System", "identityHashCode"),
   ("java.lang.Object", "hashCode"), ("java.lang.Object", "getClass"),
   ("java.lang.Object", "clone"), ("java.lang.Object", "notify"), ("java.lang.Object", "notifyAll"),
   ("java.lang.Object", "wait"), ("java.lang.Thread", "currentThread"),
   ("java.lang.Thread", "yield"), ("java.lang.Thread", "sleep"),
   ("java.lang.Float", "floatToRawIntBits"), ("java.lang.Float", "intBitsToFloat"),
   ("java.lang.Double", "doubleToRawLongBits"), ("java.lang.Double", "longBitsToDouble"),
   ("java.lang.StrictMath", "sin"), ("java.lang.StrictMath", "cos"),
   ("java.lang.StrictMath", "tan"), ("java.lang.StrictMath", "sqrt"),
   ("java.lang.StrictMath", "exp"), ("java.lang.StrictMath", "log"),
   ("java.lang.Runtime", "availableProcessors"), ("java.lang.Runtime", "freeMemory"),
   ("java.lang.Runtime", "totalMemory")]

/-- Is the method implemented outside the language? -/
def isNative (className name : String) : Bool :=
  nativeMethods.contains (className, name)

/-- The result types of some methods, as class, name and type. -/
def resultTypes : List (String × String × String) :=
  [("java.lang.System", "nanoTime", "long"), ("java.lang.System", "currentTimeMillis", "long"),
   ("java.lang.System", "identityHashCode", "int"),
   ("java.lang.System", "getenv", "java.lang.String"),
   ("java.lang.System", "getProperty", "java.lang.String"),
   ("java.lang.Runtime", "getRuntime", "java.lang.Runtime"),
   ("java.lang.Runtime", "availableProcessors", "int"),
   ("java.lang.Runtime", "exec", "java.lang.Process"),
   ("java.lang.Thread", "currentThread", "java.lang.Thread"),
   ("java.lang.Object", "hashCode", "int"), ("java.lang.Object", "toString", "java.lang.String"),
   ("java.lang.Object", "equals", "boolean"), ("java.lang.Object", "getClass", "java.lang.Class"),
   ("java.lang.Class", "getDeclaredMethod", "java.lang.reflect.Method"),
   ("java.lang.Class", "getMethod", "java.lang.reflect.Method"),
   ("java.lang.Class", "getDeclaredField", "java.lang.reflect.Field"),
   ("java.lang.Math", "sqrt", "double"), ("java.lang.Math", "sin", "double"),
   ("java.lang.Math", "cos", "double"), ("java.lang.Math", "tan", "double"),
   ("java.lang.Math", "exp", "double"), ("java.lang.Math", "log", "double"),
   ("java.lang.Math", "pow", "double"), ("java.lang.Math", "floor", "double"),
   ("java.lang.Math", "ceil", "double"), ("java.lang.Math", "atan2", "double"),
   ("java.lang.Float", "floatToRawIntBits", "int"), ("java.lang.Float", "intBitsToFloat", "float"),
   ("java.lang.Double", "doubleToRawLongBits", "long"),
   ("java.lang.Double", "longBitsToDouble", "double"), ("java.lang.Integer", "parseInt", "int"),
   ("java.lang.String", "length", "int"), ("java.lang.String", "charAt", "char")]

/-- The types of some static fields, as class, name and type. -/
def staticFields : List (String × String × String) :=
  [("java.lang.System", "out", "java.io.PrintStream"),
   ("java.lang.System", "err", "java.io.PrintStream"),
   ("java.lang.System", "in", "java.io.InputStream"), ("java.lang.Math", "PI", "double"),
   ("java.lang.Math", "E", "double"), ("java.lang.Integer", "MAX_VALUE", "int"),
   ("java.lang.Integer", "MIN_VALUE", "int"), ("java.lang.Long", "MAX_VALUE", "long"),
   ("java.lang.Long", "MIN_VALUE", "long"), ("java.lang.Float", "MAX_VALUE", "float"),
   ("java.lang.Float", "MIN_VALUE", "float"), ("java.lang.Double", "MAX_VALUE", "double"),
   ("java.lang.Double", "MIN_VALUE", "double")]

def memberType? (table : List (String × String × String)) (className name : String) :
    Option ErasedType :=
  (table.find? fun e => e.1 = className && e.2.1 = name).map fun e => ⟨e.2.2, 0⟩

def resultType? : (className name : String) → Option ErasedType := memberType? resultTypes

def staticFieldType? : (className name : String) → Option ErasedType := memberType? staticFields

def objectMethods : List String :=
  ["hashCode", "equals", "toString", "getClass", "clone", "notify", "notifyAll", "wait"]

def isObjectMethod (name : String) : Bool := objectMethods.contains name

end KernelLint.Library
