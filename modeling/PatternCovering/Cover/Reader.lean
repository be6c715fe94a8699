import PatternCovering.Cover.Report
import PatternCovering.Datum.Field

/-!
# Solutions of a covering problem from plain data
-/

namespace PatternCovering.CoverSolution

/-- A solution from plain data, with the parts that are reported as they were given. -/
def read (given : Datum) : Except Fault (CoverSolution Datum × CoverSheet) := do
  let status ← given.namedField "status" Status.ofName? .notSolved
  let values ← Table.update [] (given.getOr "column_values" (.list []))
  let sheet : CoverSheet := {
    duals := given.getOr "dual_values" (.list [])
    numColumns := given.getOr "num_columns" (.int 0)
    isIntegerSolve := given.getOr "is_ip" (.flag false) }
  return ({ status, objective := given.presentField? "objective_value", values
            isIntegerSolve := sheet.isIntegerSolve.truthy }, sheet)

end PatternCovering.CoverSolution
