import KernelLint.Config.Error
import KernelLint.Program.Edit

/-!
# Failures

What a command can fail with, by the part of the work it happened in.
-/

namespace KernelLint

/-- A failure with its detail. -/
inductive Failure where
  | parse (detail : String)
  | config (detail : String)
  | analysis (detail : String)
  deriving DecidableEq

namespace Failure

/-- The failure in words. -/
def message : Failure → String
  | .parse detail => "Parse error: " ++ detail
  | .config detail => "Configuration error: " ++ detail
  | .analysis detail => "Analysis error: " ++ detail

def ofAnalysis (e : AnalysisError) : Failure := .analysis e.reason

def ofConfig (e : ConfigError) : Failure := .config e.message

end Failure

end KernelLint
