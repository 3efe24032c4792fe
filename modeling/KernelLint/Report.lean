import KernelLint.Rule.Finding
import KernelLint.Source.Path

/-!
# Reports

The findings of one file in reading order, with their number by severity.
-/

namespace KernelLint

/-- Reading order: place, then rule, then message, then kernel. -/
def Finding.compare (a b : Finding) : Ordering :=
  (a.span.compare b.span).then <|
    (Ord.compare a.rule.rank b.rule.rank).then <|
      (Ord.compare a.message b.message).then (Ord.compare a.kernel.index b.kernel.index)

/-- What was found in a file. -/
structure Report where
  path : Path
  /-- The number of kernels of the file. -/
  kernels : Nat
  findings : List Finding
  deriving Inhabited

namespace Report

/-- A report puts its findings in reading order. -/
def ofFindings (path : Path) (kernels : Nat) (findings : List Finding) : Report :=
  ⟨path, kernels, findings.mergeSort fun a b => (a.compare b).isLE⟩

def count (r : Report) (severity : Severity) : Nat :=
  r.findings.countP (·.severity = severity)

/-- The severities that occur, with their numbers. -/
def counts (r : Report) : List (Severity × Nat) :=
  (Severity.all.map fun s => (s, r.count s)).filter (0 < ·.2)

def errors (r : Report) : Nat := r.count .error

def hasErrors (r : Report) : Bool := 0 < r.errors

def isClean (r : Report) : Bool := r.findings.isEmpty

end Report

end KernelLint
