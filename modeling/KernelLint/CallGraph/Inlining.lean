import KernelLint.Platform.Restricted
import KernelLint.Program.Query

/-!
# Which callees are inlined

A callee is followed when it is a method of the project with a body that is neither restricted nor
part of the runtime. A missing body and native code are noticed before any name is looked at.
-/

namespace KernelLint

/-- What becomes of a call to a method. -/
inductive Inlining where
  /-- A project method with a body: it is followed. -/
  | followed
  /-- A restricted interface; another rule reports it. -/
  | restricted (family : Restricted)
  /-- The runtime's own interface. -/
  | intrinsic
  /-- Code of a library. -/
  | foreign
  /-- There is nothing to look at, for the reason given. -/
  | blocked (reason : String)
  deriving DecidableEq

namespace Inlining

def isFollowed : Inlining → Bool
  | .followed => true
  | _ => false

def reason? : Inlining → Option String
  | .blocked reason => some reason
  | _ => none

end Inlining

/-- The verdict on a callee whose body is at hand, by the name of its class. -/
def Program.inliningByName (p : Program) (trusted : String) (m : Method) : Inlining :=
  let byOrigin := if p.isProjectMethod m then Inlining.followed else .foreign
  match p.classNameOf? m with
  | none => byOrigin
  | some name =>
    match Restricted.ofClass? name with
    | some family => .restricted family
    | none => if Text.startsWith name trusted then .intrinsic else byOrigin

/-- The verdict on a callee. -/
def Program.inlining (p : Program) (trusted : String) (m : Method) : Inlining :=
  if m.body.isNone then
    .blocked ("Method '" ++ m.name ++ "' has no source body available for analysis")
  else if m.isNative then .blocked ("Method '" ++ m.name ++ "' is native")
  else p.inliningByName trusted m

end KernelLint
