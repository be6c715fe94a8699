import PatternCovering.Engine
import PatternCovering.ExactSolver.Program

/-!
# An exact engine

An engine that keeps the model and solves it over the rationals.

A variable or a row that makes no sense is passed over without a word: one whose lower bound is an
upward infinity, whose upper bound is a downward one, or a row that names a variable twice or has a
coefficient of very large size. A term of a new row that is no number is left out. The engine
remembers the coefficients that it was asked for, whether it took them or not, and a coefficient
that is added is added to what was asked for before.

How much the engine may print is a level that has to be comparable with zero once there is a model,
and its other options have to be plain values.
-/

namespace PatternCovering

/-- A model, if there is one yet, with its latest solution. -/
structure ExactSolver where
  verbosity : Datum := .int 0
  /-- The time limit as it was given. -/
  timeLimit : Datum := .null
  /-- The tolerance for integers as it was given. -/
  tolerance : Datum := .null
  /-- The options that are set. -/
  options : SolveOptions := {}
  opened : Bool := false
  /-- The coefficients asked for, by rows and columns as they were given. -/
  asked : List (Entry Datum) := []
  model : Model Datum := {}
  solution : Option ExactSolution := none

namespace ExactSolver

/-- Whether a lower bound is not an upward infinity. -/
def isLowerBound (given : Option Datum) : Bool :=
  given.all fun bound => Quantity.lt bound (Quantity.report infiniteSize)

/-- Whether an upper bound is not a downward infinity. -/
def isUpperBound (given : Option Datum) : Bool :=
  given.all fun bound => Quantity.lt (Quantity.report (-infiniteSize)) bound

/-- Solves the model and keeps its solution. -/
def solve (solver : ExactSolver) : ExactSolver × Status :=
  match solveModel solver.options solver.model with
  | .ok solution => ({ solver with solution := some solution }, .optimal)
  | .error status => ({ solver with solution := none }, status)

/-- A value of the latest solution. -/
def read {β : Type} (solver : ExactSolver) (value : ExactSolution → Except Fault β) :
    Except Fault β :=
  match solver.solution with
  | some solution => value solution
  | none => .error (.noSolution .notSolved)

/-- A new engine with its level of printing, its time limit, which may be nothing, and its tolerance
for integers, if there is an engine to be had. -/
def start (available : Bool) (verbosity timeLimit tolerance : Datum) : Except Fault ExactSolver :=
  if available then .ok { verbosity, timeLimit, tolerance } else .error .engineUnavailable

/-- Refuses a level of printing that is not comparable with zero. -/
def checkVerbosity (level : Datum) : Except Fault Unit := do
  let _ ← (Datum.int 0).lt level
  return

/-- Opens an empty model. An option that is refused does not keep the model from being opened, but
what comes after it, the direction at last, is not set any more. -/
def create (solver : ExactSolver) (sense : Sense) : ExactSolver × Except Fault Unit :=
  let opened := { solver with opened := true }
  match checkVerbosity solver.verbosity with
  | .error fault => (opened, .error fault)
  | .ok () =>
    match SolveOptions.read solver.timeLimit solver.tolerance with
    | (options, .error fault) => ({ opened with options }, .error fault)
    | (options, .ok ()) => ({ opened with options, model := { sense } }, .ok ())

/-- Sets the level of printing, which is looked at only if there is a model. -/
def setVerbosity (solver : ExactSolver) (level : Datum) : ExactSolver × Except Fault Unit :=
  ({ solver with verbosity := level }, if solver.opened then checkVerbosity level else .ok ())

/-- Refuses a bound that is no real number. -/
def checkBound : Option Datum → Except Fault Unit
  | none => .ok ()
  | some given => do
    let _ ← given.measure
    return

/-- Adds a variable with real numbers for its bounds and its objective, unless it is passed over.
The last variable that there is then becomes integer if that is asked for. -/
def addVariable (solver : ExactSolver) (added : Variable Datum) : Except Fault ExactSolver := do
  let objective ← Quantity.real? added.objective
  checkBound added.lower
  checkBound added.upper
  let model :=
    if isLowerBound added.lower && isUpperBound added.upper then
      solver.model.addVariable { added with objective, isInteger := .flag false }
    else solver.model
  return { solver with
    model := if added.isInteger.truthy then
        model.setInteger (model.vars.length - 1) added.isInteger
      else model }

/-- The terms of a row by the places of their variables, none if one of them is refused. A place
that is no integer is cut off to one, and a term that is no number is left out. -/
def placedTerms? (numColumns : Nat) (terms : List (Datum × Datum)) :
    Option (List (Datum × Datum)) := do
  let placed ← terms.mapM fun (column, amount) => do
    let place := (← finite? column).floor.toNat
    if place < numColumns && (beyond? refusedSize amount).isNone then some (place, amount) else none
  if (placed.map (·.1)).eraseDups.length = placed.length then
    some ((placed.filter fun (_, amount) => (finite? amount).isSome).map fun (place, amount) =>
      (Datum.int place, amount))
  else none

/-- Adds a row with real numbers for its bounds, unless it is passed over. -/
def addRow (solver : ExactSolver) (row : Row Datum) (terms : List (Datum × Datum)) :
    ExactSolver × Except Fault Unit :=
  let model := solver.model
  let asked := Model.addTerms (.int model.rows.length) terms solver.asked
  match (do
    checkBound row.lower
    checkBound row.upper) with
  | .error fault => ({ solver with asked }, .error fault)
  | .ok () =>
    match placedTerms? model.vars.length terms with
    | some placed =>
      if isLowerBound row.lower && isUpperBound row.upper then
        ({ solver with asked, model := model.addRow row placed }, .ok ())
      else ({ solver with asked }, .ok ())
    | none => ({ solver with asked }, .ok ())

/-- Adds a coefficient to what was asked for at an entry, and sets the entry accordingly if there is
such a row and such a column. -/
def addCoefficient (solver : ExactSolver) (row column amount : Datum) :
    ExactSolver × Except Fault Unit :=
  let model := solver.model
  let asked := Model.accumulate row column amount solver.asked
  match row.toInt, column.toInt with
  | .ok place, .ok other =>
    if place < model.rows.length ∧ other < model.vars.length then
      let value := (Model.valueAt? row column asked).getD amount
      ({ solver with asked, model := model.setCoefficient (.int place) (.int other) value },
        .ok ())
    else ({ solver with asked }, .ok ())
  | _, _ => ({ solver with asked }, .error .wrongType)

/-- Makes a variable integer or continuous, if there is such a variable. -/
def setInteger (solver : ExactSolver) (column isInteger : Datum) : Except Fault ExactSolver := do
  let place ← column.toInt
  return { solver with model := solver.model.setInteger place.toNat isInteger }

/-- The number of entries of the matrix that do not count as absent. -/
def numEntries (solver : ExactSolver) : Nat := (entries solver.model).length

/-- The engine that solves exactly. -/
def engine : Engine ExactSolver Datum where
  create := create
  addVariable := addVariable
  addRow := addRow
  addCoefficient := addCoefficient
  setInteger := setInteger
  solve solver :=
    let (solved, status) := solver.solve
    (solved, .ok status)
  objective solver := solver.read fun solution => .ok (some solution.objective)
  dual solver row := solver.read fun solution => do
    return Quantity.report (← Position.element solution.duals row)
  primal solver column := solver.read fun solution => do
    return .float (← Position.element solution.point column)

end ExactSolver

end PatternCovering
