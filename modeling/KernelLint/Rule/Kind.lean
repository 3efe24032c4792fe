import KernelLint.Text.EditDistance

/-!
# Rules and severities

The nine rules with the names used in configurations and reports.
-/

namespace KernelLint

/-- How grave a finding is, gravest first. -/
inductive Severity where
  | error | warning | weakWarning
  deriving DecidableEq, Inhabited

namespace Severity

/-- All severities, gravest first. -/
def all : List Severity := [.error, .warning, .weakWarning]

/-- The name in reports. -/
def label : Severity → String
  | .error => "error"
  | .warning => "warning"
  | .weakWarning => "weak-warning"

def ofLabel? (s : String) : Option Severity := all.find? (·.label = s)

end Severity

/-- A rule, in the order in which rules run and reports are sorted. -/
inductive RuleKind where
  | dataType | recursion | throw | systemCall | nonVoidReturn | staticTaskGraph | assert
  | externalLibrary | unresolvableHelper
  deriving DecidableEq, Inhabited

namespace RuleKind

/-- All rules in order. -/
def all : List RuleKind :=
  [.dataType, .recursion, .throw, .systemCall, .nonVoidReturn, .staticTaskGraph, .assert,
    .externalLibrary, .unresolvableHelper]

/-- The name in configurations and reports. -/
def label : RuleKind → String
  | .dataType => "data-type"
  | .recursion => "recursion"
  | .throw => "throw"
  | .systemCall => "system-call"
  | .nonVoidReturn => "non-void-return"
  | .staticTaskGraph => "static-task-graph"
  | .assert => "assert"
  | .externalLibrary => "external-library"
  | .unresolvableHelper => "unresolvable-helper"

def rank : RuleKind → Nat
  | .dataType => 0
  | .recursion => 1
  | .throw => 2
  | .systemCall => 3
  | .nonVoidReturn => 4
  | .staticTaskGraph => 5
  | .assert => 6
  | .externalLibrary => 7
  | .unresolvableHelper => 8

/-- All names in order. -/
def labels : List String := all.map label

def ofLabel? (s : String) : Option RuleKind := all.find? (·.label = s)

end RuleKind

end KernelLint
