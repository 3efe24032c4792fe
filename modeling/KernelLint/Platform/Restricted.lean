import KernelLint.Text.Cut

/-!
# Restricted interfaces

The parts of the platform that device code must not call into. A class is restricted when its
qualified name begins with an entry of the table; the first entry that fits names the family.
-/

namespace KernelLint

/-- A family of restricted interfaces, in the order in which they are tried. -/
inductive Restricted where
  | system | runtime | processBuilder | process | thread | io | concurrency | reflection
  | net | nio | security | sql
  deriving DecidableEq, Inhabited

namespace Restricted

/-- All families; a longer name stands before the name it begins with. -/
def all : List Restricted :=
  [.system, .runtime, .processBuilder, .process, .thread, .io, .concurrency, .reflection, .net,
    .nio, .security, .sql]

/-- What the qualified names of the family begin with. -/
def root : Restricted → String
  | .system => "java.lang.System"
  | .runtime => "java.lang.Runtime"
  | .processBuilder => "java.lang.ProcessBuilder"
  | .process => "java.lang.Process"
  | .thread => "java.lang.Thread"
  | .io => "java.io"
  | .concurrency => "java.util.concurrent"
  | .reflection => "java.lang.reflect"
  | .net => "java.net"
  | .nio => "java.nio"
  | .security => "java.security"
  | .sql => "java.sql"

/-- The short name of the family. -/
def label : Restricted → String
  | .system => "system"
  | .runtime => "runtime"
  | .processBuilder => "process-builder"
  | .process => "process"
  | .thread => "thread"
  | .io => "io"
  | .concurrency => "concurrency"
  | .reflection => "reflection"
  | .net => "net"
  | .nio => "nio"
  | .security => "security"
  | .sql => "sql"

def ofClass? (qualifiedName : String) : Option Restricted :=
  all.find? fun r => Text.startsWith qualifiedName r.root

end Restricted

end KernelLint
