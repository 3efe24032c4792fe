import KernelLint.Program.Basic
import KernelLint.Program.Header

/-!
# Editing a program

Edits of methods. An edit that succeeds counts as one revision; an edit of a method that is not
there changes nothing.
-/

namespace KernelLint

/-- Why an analysis or an edit was refused. -/
inductive AnalysisError where
  /-- The method does not exist or was removed. -/
  | unknownMethod (id : MethodId)
  deriving DecidableEq

/-- The cause in words. -/
def AnalysisError.reason : AnalysisError → String
  | .unknownMethod id => "unknown method " ++ id.render

namespace Program

/-- Give a method another body; `source` is the body as written and counts only with a body. -/
def replaceBody (p : Program) (id : MethodId) (body : Option Stmt) (source : String) :
    Except AnalysisError Program :=
  match p.method? id with
  | none => .error (.unknownMethod id)
  | some _ =>
    .ok (p.modifyMethod id fun m =>
      { m with text := withBodyText m.text (body.map fun _ => source), body }).bump

/-- Give a method another name, also in its text. -/
def renameMethod (p : Program) (id : MethodId) (name : String) : Except AnalysisError Program :=
  match p.method? id with
  | none => .error (.unknownMethod id)
  | some _ =>
    .ok (p.modifyMethod id fun m =>
      { m with text := withNameText m.text m.name name, name }).bump

/-- Take a method out of the program and out of its class. -/
def removeMethod (p : Program) (id : MethodId) : Option (Method × Program) :=
  (p.method? id).map fun m =>
    (m, ((p.clearSlot id).relinkMethod m (·.filter (· ≠ id))).bump)

/-- Count an edit that the program does not record, such as one of white space. -/
def touch (p : Program) : Program := p.bump

end Program

end KernelLint
