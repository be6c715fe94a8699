import PatternCovering.Column.Report
import PatternCovering.Cover
import PatternCovering.Settings

/-!
# Reports of covering problems

Whether a solution is integer and which of its columns are active depends on tolerances of the
settings.
-/

namespace PatternCovering

/-- The parts of a solution that are reported as plain data. -/
structure CoverSheet where
  duals : Datum
  numColumns : Datum
  isIntegerSolve : Datum

namespace CoverSolution

/-- The parts of a solution as plain data. -/
def sheet (solution : CoverSolution Datum) : CoverSheet :=
  ⟨.list solution.duals, .int solution.numColumns, .flag solution.isIntegerSolve⟩

/-- What is reported of a solution, given its sheet and the time it took. -/
def fields (solution : CoverSolution Datum) (sheet : CoverSheet) (settings : Settings)
    (time : Datum) : Except Fault (List (String × Report)) := do
  let isInteger := do
    solution.isInteger (← settings.tolerance (.text "integrality"))
  let feasibility ← settings.feasibility
  return [("status", .of solution.status), ("objective", .of solution.objective),
    ("values", .of solution.values), ("duals", .of sheet.duals),
    ("num_columns", .of sheet.numColumns), ("is_ip", .of sheet.isIntegerSolve),
    ("is_optimal", .of solution.isOptimal), ("is_integer", .of isInteger),
    ("active", .of (← solution.active feasibility)),
    ("summary", .of (← solution.summary feasibility sheet.numColumns time)),
    ("repr", .of (← solution.shown))]

/-- The report of a solution that took no time. -/
def report (solution : CoverSolution Datum) (settings : Settings) : Except Fault Report := do
  return .object (← solution.fields solution.sheet settings Datum.realZero)

/-- The active columns at a tolerance, that of the settings if it is nothing. -/
def activeAt (solution : CoverSolution Datum) (settings : Settings) :
    Datum → Except Fault (List Datum)
  | .null => do
    solution.active (← settings.feasibility)
  | tolerance => solution.active tolerance

end CoverSolution

instance : Reportable Item := ⟨fun item => .of item.shown⟩

/-- The size of a covering problem. -/
def Cover.sizes {ε : Type} (cover : Cover ε Datum) : Report :=
  .object [("num_items", .of cover.numItems), ("num_columns", .of cover.numColumns),
    ("repr", .of cover.shown), ("items", .of cover.items)]

end PatternCovering
