import PatternCovering.Column.Report
import PatternCovering.Generation.Session

/-!
# Reports of column generation

A call of an observer is reported with the number of columns twice: as the round counts them, and as
the covering problem does at that moment.
-/

namespace PatternCovering

instance : Reportable GenerationStatus := ⟨fun status => .of status.name⟩

instance : Reportable RoundSheet where
  report round := .list [.of round.number, .of round.objective, .of round.reducedCost,
    .of round.added, .of round.total]

instance : Reportable (ObserverCall Datum) where
  report call := .list [.of call.position, .of call.round.number, .of call.round.objective,
    .of call.round.reducedCost, .of call.round.numAdded, .of call.round.totalColumns,
    .of call.round.totalColumns, .of call.solved]

/-- The report of an event; a message that cannot be written is a fault. -/
def Event.report (event : Event) : Except Fault Report := do
  return .list [.of event.level.name, .of event.origin, .of (← event.message)]

namespace Outcome

/-- The report of a result, given its sheet and the times in all, in the relaxations and in
pricing. -/
def reportWith (outcome : Outcome Datum) (sheet : OutcomeSheet)
    (total relaxation pricing : Datum) : Except Fault Report := do
  return .object [("status", .of outcome.status), ("converged", .of sheet.converged),
    ("objective", .of outcome.objective), ("ip_objective", .of outcome.integerObjective),
    ("columns", .of outcome.columns), ("ip_columns", .of outcome.integerColumns),
    ("total_columns", .of sheet.totalColumns), ("iterations", .of sheet.rounds),
    ("is_optimal", .of outcome.isOptimal), ("active", .of outcome.columns.length),
    ("values", .of (← outcome.values)),
    ("convergence", .of (sheet.history.map (·.objective))), ("history", .of sheet.history),
    ("summary", .of (← outcome.summary sheet total relaxation pricing)),
    ("repr", .of (← outcome.shown sheet.rounds))]

/-- The report of a result that took no time, given its sheet. -/
def untimed (outcome : Outcome Datum) (sheet : OutcomeSheet) : Except Fault Report :=
  outcome.reportWith sheet Datum.realZero Datum.realZero Datum.realZero

/-- The report of a result that took no time. -/
def report (outcome : Outcome Datum) : Except Fault Report := outcome.untimed outcome.sheet

end Outcome

/-- The settings of a run in the order in which they are reported. -/
def GenerationSettings.fields (settings : GenerationSettings Datum) : List (String × Datum) :=
  [("max_iterations", .number settings.budget), ("optimality_tolerance", settings.tolerance),
    ("solve_ip", settings.solveInteger), ("verbose", settings.verbose)]

instance : Reportable (GenerationSettings Datum) where
  report settings := .object (settings.fields.map fun (name, value) => (name, .of value))

end PatternCovering
