import PatternCovering.Report
import PatternCovering.Settings

/-!
# Reports of settings
-/

namespace PatternCovering

/-- The report of tolerances: their names and values, or the list that stands in their place. Other
data cannot be copied for a report. -/
def Tolerances.report : Tolerances → Except Fault Report
  | .table entries => .ok (.of entries)
  | .other (.list elements) => .ok (.of elements)
  | .other _ => .error .missingPart

/-- The report of settings. -/
def Settings.report (settings : Settings) : Except Fault Report := do
  return .object [("log_level", .of settings.logLevel),
    ("max_iterations", .of settings.maxIterations),
    ("solver_verbosity", .of settings.solverVerbosity),
    ("tolerances", ← settings.tolerances.report)]

end PatternCovering
