import KernelLint.CallGraph.Cache
import KernelLint.Catalog
import KernelLint.Report
import KernelLint.Rule.Check

/-!
# Sessions

A session inspects files of a program under a configuration. It remembers scopes and the kernels it
flagged; both belong to a revision of the program and start afresh at the next one.
-/

namespace KernelLint

/-- The state of an inspection session. -/
structure Session where
  config : Config
  rules : List RuleKind
  scopes : ScopeCache
  registry : Registry

namespace Session

/-- A session with every rule its configuration enables. -/
def start (config : Config) (registry : Registry := {}) : Session :=
  { config, rules := config.enabledRules, scopes := .ofConfig config, registry }

/-- The findings of every rule about one kernel. -/
def findings (rules : List RuleKind) (ctx : RuleContext) : List Finding :=
  rules.flatMap (·.check ctx)

/-- Everything that the rules do about one kernel, in order. -/
def notices (rules : List RuleKind) (ctx : RuleContext) : List Notice :=
  rules.flatMap (·.notices ctx)

/-- Does a rule make the kernel a problem method? -/
def flagged (rules : List RuleKind) (ctx : RuleContext) : Bool :=
  (notices rules ctx).any (·.flags)

/-- What a notice about a kernel does to the registry. -/
def heed (owner : Owner) (text : String) (r : Registry) (notice : Notice) : Registry :=
  if notice.flags then (r.add owner text).2 else r

/-- Inspect one kernel. Its text enters the registry whenever a rule flags it. -/
def inspectKernel (s : Session) (p : Program) (owner : Owner) (kernel : Method) :
    List Finding × Session :=
  let (cached, scopes) := s.scopes.resolve p kernel
  let ctx : RuleContext := ⟨p, s.config, kernel, cached.scope⟩
  let registry := (notices s.rules ctx).foldl (heed owner kernel.text) s.registry
  (findings s.rules ctx, { s with scopes, registry })

def inspectKernels (p : Program) (owner : Owner) :
    List Method → Session → List Finding × Session
  | [], s => ([], s)
  | kernel :: rest, s =>
    let (found, s) := s.inspectKernel p owner kernel
    let (more, s) := inspectKernels p owner rest s
    (found ++ more, s)

def inspectFile (s : Session) (p : Program) (file : FileId) : Report × Session :=
  let s := { s with registry := (s.registry.sync p.revision).2 }
  let path := ((p.file? file).map (·.path)).getD ⟨""⟩
  let kernels := (Catalog.kernels s.config p file).map (·.1)
  let (found, s) := inspectKernels p ⟨file, path⟩ kernels s
  (Report.ofFindings path kernels.length found, s)

def inspectFiles (p : Program) : List FileId → Session → List Report × Session
  | [], s => ([], s)
  | file :: rest, s =>
    let (report, s) := s.inspectFile p file
    let (reports, s) := inspectFiles p rest s
    (report :: reports, s)

end Session

/-- The files of the project in the order of their creation. -/
def Program.projectFiles (p : Program) : List SourceFile :=
  p.files.toList.filter (·.origin = .project)

namespace Session

def inspectProgram (s : Session) (p : Program) : List Report × Session :=
  inspectFiles p (p.projectFiles.map (·.id)) s

/-- The kernels of a file that can be run, after inspecting it. -/
def runnableTasks (s : Session) (p : Program) (file : FileId) : List Task × Session :=
  let (_, s) := s.inspectFile p file
  (Catalog.tasks s.config s.registry p file, s)

end Session

end KernelLint
