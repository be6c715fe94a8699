import PatternCovering.Datum.Written
import PatternCovering.Quantity

/-!
# Solutions of the covering problem

The objective, the values of the columns by their identifiers and, for the linear relaxation, the
duals of the rows.
-/

namespace PatternCovering

/-- A solution of the covering problem or of its integer restriction. -/
structure CoverSolution (α : Type) where
  status : Status := .notSolved
  objective : Option α := none
  values : Table α := []
  duals : List α := []
  numColumns : Nat := 0
  isIntegerSolve : Bool := false

namespace CoverSolution

variable {α : Type} [Quantity α]

/-- Whether the solution is optimal. -/
def isOptimal (solution : CoverSolution α) : Bool := solution.status == .optimal

/-- Whether the problem is infeasible. -/
def isInfeasible (solution : CoverSolution α) : Bool := solution.status == .infeasible

/-- Whether a value is within a tolerance of an integer. -/
def nearInteger (tolerance value : α) : Except Fault Bool := do
  let nearest ← Quantity.round? value
  let distance ← Quantity.sub? value (Quantity.ofInt nearest)
  return !(← Quantity.lt? tolerance (← Quantity.abs? distance))

/-- Whether all of some values are within a tolerance of integers; the first one that is not settles
it. -/
def allNearInteger (tolerance : α) : List α → Except Fault Bool
  | [] => .ok true
  | value :: rest => do
    if ← nearInteger tolerance value then allNearInteger tolerance rest else return false

/-- Whether the values of all columns are within a tolerance of integers. -/
def isInteger (solution : CoverSolution α) (tolerance : α) : Except Fault Bool :=
  allNearInteger tolerance (solution.values.map (·.2))

/-- The entries of a table with a value above a tolerance. -/
def aboveTolerance (tolerance : α) : Table α → Except Fault (Table α)
  | [] => .ok []
  | (id, value) :: rest => do
    let isAbove ← Quantity.lt? tolerance value
    let others ← aboveTolerance tolerance rest
    return if isAbove then (id, value) :: others else others

/-- The identifiers of the columns with a value above a tolerance. -/
def active (solution : CoverSolution α) (tolerance : α) : Except Fault (List Datum) := do
  return (← aboveTolerance tolerance solution.values).map (·.1)

/-- The value of the column with an identifier, zero if it has none. -/
def valueOf (solution : CoverSolution α) (id : Datum) : α :=
  (Table.find? id solution.values).getD Quantity.zero

/-- A summary in lines, with the given tolerance for active columns, number of columns and time. -/
def summary (solution : CoverSolution α) (tolerance : α) (numColumns time : Datum) :
    Except Fault String := do
  let objective ←
    match solution.objective with
    | none => .ok []
    | some value => do
      let text ← (Quantity.report value).fixed 6
      .ok [s!"  Objective: {text}"]
  let used := (← solution.active tolerance).length
  let seconds ← time.fixed 3
  return String.intercalate "\n"
    (["MasterSolution:", s!"  Status: {solution.status.name}"] ++ objective ++
      [s!"  Active columns: {used} / {numColumns.plain}", s!"  Solve time: {seconds}s"])

/-- The solution as it is shown. -/
def shown (solution : CoverSolution α) : Except Fault String := do
  let objective ←
    match solution.objective with
    | none => .ok ""
    | some value => do
      let text ← (Quantity.report value).fixed 4
      .ok s!", obj={text}"
  let kind := if solution.isIntegerSolve then "IP" else "LP"
  return s!"MasterSolution({kind}, {solution.status.name}{objective})"

end CoverSolution

end PatternCovering
