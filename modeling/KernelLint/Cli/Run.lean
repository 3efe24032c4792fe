import KernelLint.Cli.Arguments
import KernelLint.Cli.FileTree
import KernelLint.Config.Yaml
import KernelLint.Failure
import KernelLint.Java.Source
import KernelLint.Output.Findings
import KernelLint.Resolve.Program
import KernelLint.Session

/-!
# Carrying out a command

From the words of a command line and the files in sight to what is printed and the exit code: zero
when nothing is wrong, one when a kernel has an error, two when the request itself cannot be carried
out.
-/

namespace KernelLint.Cli

/-- What a command leaves behind. -/
structure Outcome where
  exitCode : Nat
  output : String := ""
  /-- What is said about a failure. -/
  complaint : String := ""
  deriving DecidableEq, Inhabited

/-! ## Refusals -/

def usage : String :=
  "Static eligibility checks for TornadoVM kernels\n\n" ++
  "Usage: [OPTIONS] <COMMAND>\n\n" ++
  "Commands:\n" ++
  "  check  Diagnose kernels in Java sources\n" ++
  "  tasks  List runnable kernels\n\n" ++
  "Options:\n" ++
  "  -c, --config <CONFIG>    YAML configuration file (version 1 schema)\n" ++
  "      --preset <PRESET>    Preset used when no configuration file is given\n" ++
  "  -j, --jobs <JOBS>        Worker threads for kernel fan-out\n" ++
  "  -v, --verbose...         Log verbosity\n" ++
  "  -l, --library <LIBRARY>  Directory of library sources used only for call resolution\n" ++
  "  -f, --format <FORMAT>    Output format: text or json\n" ++
  "  -h, --help               Print help\n"

/-- A refusal in words. -/
def Refusal.message : Refusal → String
  | .help => usage
  | .unknownOption word => "unknown option '" ++ word ++ "'"
  | .missingValue option => "a value is required for '" ++ option ++ "'"
  | .unexpectedValue option => "'" ++ option ++ "' takes no value"
  | .repeatedOption option => "'" ++ option ++ "' cannot be used multiple times"
  | .badValue option value => "invalid value '" ++ value ++ "' for '" ++ option ++ "'"
  | .unexpectedWord word => "unexpected argument '" ++ word ++ "'"
  | .missingAction => "a command is required"
  | .missingPaths => "a path is required"

def Outcome.ofRefusal : Refusal → Outcome
  | .help => { exitCode := 0, output := usage }
  | r => { exitCode := 2, complaint := "error: " ++ r.message ++ "\n" }

/-! ## The work -/

/-- The configuration of a command: the file, else the preset, else the default. -/
def Command.loadConfig (c : Command) (t : FileTree) : Except String Config :=
  match c.config, c.preset with
  | some path, _ =>
    match t.read? path with
    | none => .error ("cannot read " ++ path.text)
    | some text => (Config.parse text).mapError ConfigError.message
  | none, some preset => .ok (Config.ofPreset preset)
  | none, none => .ok (Config.ofPreset .balanced)

def addSources (origin : Origin) (sources : List (Path × String)) (p : Program) : Program :=
  sources.foldl (fun p (path, text) => (p.addSource path text origin).2) p

/-- The program of a command, with all names resolved. -/
def Command.program (c : Command) (t : FileTree) : Program :=
  let own := c.paths.flatMap t.sources
  let foreign := c.library.toList.flatMap t.sources
  (addSources .library foreign (addSources .project own .empty)).resolve

def printReports (format : Format) (p : Program) (reports : List Report) : String :=
  match format with
  | .json => (JsonValue.list (reports.map Report.toJson)).render ++ "\n"
  | .text => String.join (reports.map (·.lines p)) ++ Report.summary reports

def collectTasks (p : Program) : List SourceFile → Session → List (Path × Task)
  | [], _ => []
  | file :: rest, s =>
    let (tasks, s) := s.runnableTasks p file.id
    tasks.map (file.path, ·) ++ collectTasks p rest s

def printTasks (format : Format) (tasks : List (Path × Task)) : String :=
  match format with
  | .json => (JsonValue.list (tasks.map fun (path, t) => t.entryJson path)).render ++ "\n"
  | .text => String.join (tasks.map fun (path, t) => t.line path)

def Command.execute (c : Command) (config : Config) (t : FileTree) : Outcome :=
  let p := c.program t
  let s := Session.start config
  match c.action with
  | .check =>
    let (reports, _) := s.inspectProgram p
    { exitCode := if reports.any Report.hasErrors then 1 else 0
      output := printReports c.format p reports }
  | .tasks =>
    { exitCode := 0, output := printTasks c.format (collectTasks p p.projectFiles s) }

def Command.run (c : Command) (t : FileTree) : Outcome :=
  match c.loadConfig t with
  | .ok config => c.execute config t
  | .error message => { exitCode := 2, complaint := "error: " ++ message ++ "\n" }

/-- Carry out a command line. -/
def run (words : List String) (t : FileTree) : Outcome :=
  match Command.parse words with
  | .ok c => c.run t
  | .error r => .ofRefusal r

end KernelLint.Cli
