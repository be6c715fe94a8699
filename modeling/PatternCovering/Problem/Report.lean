import PatternCovering.ExactSolver
import PatternCovering.Problem
import PatternCovering.Recorder
import PatternCovering.Report

/-!
# Reports of problems

A problem in a recording engine is reported with all that was recorded; a missing bound is reported
as an infinity.
-/

namespace PatternCovering

instance : Reportable (Variable Datum) where
  report added := .list [.of added.name, .of (Window.reportLower added.lower),
    .of (Window.reportUpper added.upper), .of added.objective, .of added.isInteger]

instance : Reportable (Row Datum) where
  report row := .list [.of row.name, .of (Window.reportLower row.lower),
    .of (Window.reportUpper row.upper)]

instance : Reportable (Entry Datum) where
  report entry := .list [.of entry.row, .of entry.column, .of entry.value]

instance : Reportable (Problem (Recorder Datum)) where
  report problem :=
    let model := problem.engine.model
    .object [("name", .of problem.name), ("sense", .of problem.sense),
      ("status", .of problem.status), ("variables", .of model.vars), ("rows", .of model.rows),
      ("coefficients", .of model.sortedEntries), ("modifiable", .of problem.modifiable),
      ("solve_calls", .of problem.engine.solves)]

/-- A handle under the kind of thing it stands for. -/
def Handle.report (handle : Handle) (kind : String) : Report :=
  .object [(kind, .of (handle.index, handle.name))]

/-- The size of a problem and what it is called. -/
def Problem.sizes {ε : Type} (problem : Problem ε) : Report :=
  .object [("name", .of problem.name), ("sense", .of problem.sense),
    ("created", .of problem.isCreated), ("num_variables", .of problem.vars.length),
    ("num_constraints", .of problem.constraints.length)]

/-- The size of the model in an exact engine, once there is one. -/
def Problem.modelSizes (problem : Problem ExactSolver) : Except Fault Report :=
  if !problem.engine.opened then .error .missingPart
  else
    let model := problem.engine.model
    .ok (.object [("num_columns", .of model.vars.length), ("num_rows", .of model.rows.length),
      ("num_nonzeros", .of problem.engine.numEntries)])

end PatternCovering
