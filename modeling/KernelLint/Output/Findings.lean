import KernelLint.Catalog
import KernelLint.Output.Json
import KernelLint.Report

/-!
# Printed reports

Reports and tasks as lines of text and as JSON.
-/

namespace KernelLint

/-! ## JSON -/

/-- A span with its four numbers. -/
def Span.toJson (s : Span) : JsonValue :=
  .object [("start_line", .number s.startLine), ("start_col", .number s.startCol),
    ("end_line", .number s.endLine), ("end_col", .number s.endCol)]

/-- What a finding is attached to. -/
def Target.toJson : Target → JsonValue
  | .node id => .object [("node", .number id.index)]
  | .method id => .object [("method", .number id.index)]

/-- A finding with all its parts. -/
def Finding.toJson (f : Finding) : JsonValue :=
  .object [("rule", .text f.rule.label), ("severity", .text f.severity.label),
    ("message", .text f.message), ("target", f.target.toJson), ("span", f.span.toJson),
    ("method", .number f.method.index), ("kernel", .number f.kernel.index)]

/-- A report with its findings and their numbers. -/
def Report.toJson (r : Report) : JsonValue :=
  .object [("path", .text r.path.text), ("kernels", .number r.kernels),
    ("violations", .list (r.findings.map Finding.toJson)),
    ("counts", .object (r.counts.map fun (s, n) => (s.label, .number n)))]

def Task.toJson (t : Task) : JsonValue :=
  .object [("method", .number t.method.index), ("display_name", .text t.displayName),
    ("span", t.span.toJson), ("local_memory_parameters", .list (t.localMemory.map .text))]

/-- A task with the file it belongs to. -/
def Task.entryJson (path : Path) (t : Task) : JsonValue :=
  .object [("file", .text path.text), ("task", t.toJson)]

/-! ## Lines -/

/-- A finding on a line; `path` is the file it stands in. -/
def Finding.line (path : Path) (f : Finding) : String :=
  path.text ++ ":" ++ toString f.span.startLine ++ ":" ++ toString f.span.startCol ++ ": " ++
    f.severity.label ++ "[" ++ f.rule.label ++ "]: " ++ f.message ++ "\n"

/-- The file that a finding of a report stands in: a helper can live in another file than its
kernel. -/
def Report.pathOf (r : Report) (p : Program) (f : Finding) : Path :=
  (((p.method? f.method).bind fun m => p.file? m.file).map (·.path)).getD r.path

def Report.lines (r : Report) (p : Program) : String :=
  String.join (r.findings.map fun f => f.line (r.pathOf p f))

/-- The sum of a number over some reports. -/
def Report.total (number : Report → Nat) (reports : List Report) : Nat :=
  reports.foldl (fun n r => n + number r) 0

/-- How many files, findings and errors there are. -/
def Report.summary (reports : List Report) : String :=
  toString reports.length ++ " files, " ++ toString (total (·.findings.length) reports) ++
    " problems (" ++ toString (total errors reports) ++ " errors)\n"

def Task.line (path : Path) (t : Task) : String :=
  path.text ++ ":" ++ toString t.span.startLine ++ ": " ++ t.displayName ++ "  local-memory: [" ++
    Text.joinWith ", " t.localMemory ++ "]\n"

end KernelLint
