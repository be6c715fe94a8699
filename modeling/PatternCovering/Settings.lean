import PatternCovering.Datum.Arithmetic
import PatternCovering.Text.Upper

/-!
# Settings

Defaults for a whole run: the level of the journal that is shown, the budget of rounds, how much an
engine may print, and numerical tolerances by name. Settings that are made have their level in upper
case; the settings of a run can be replaced by any data.
-/

namespace PatternCovering

/-- Tolerances under their names. Other data can stand in their place; it has no names. -/
inductive Tolerances where
  | table (entries : Table Datum)
  | other (given : Datum)

namespace Tolerances

/-- The tolerances that are known from the start. -/
def standard : Table Datum :=
  [(.text "reduced_cost", .float 1e-6), (.text "feasibility", .float 1e-6),
    (.text "integrality", .float 1e-5)]

/-- Tolerances as they are given: a record has names, other data has none. -/
def ofGiven : Datum → Tolerances
  | .record fields => table (fields.map fun (name, value) => (.text name, value))
  | given => other given

/-- The tolerances with their names. -/
def entries? : Tolerances → Except Fault (Table Datum)
  | table entries => .ok entries
  | other _ => .error .missingPart

/-- The tolerance of a name, one millionth if it is not known. -/
def get (tolerances : Tolerances) (name : Datum) : Except Fault Datum := do
  let known ← (← tolerances.entries?).get name
  return known.getD (.float 1e-6)

/-- Sets the tolerance of a name; in a list the name has to be a position. -/
def set (tolerances : Tolerances) (name value : Datum) : Except Fault Tolerances :=
  match tolerances with
  | table entries => do
    return table (← entries.insert name value)
  | other (.list elements) => do
    return other (.list (elements.set (← Position.place elements.length name) value))
  | other _ => .error .wrongType

/-- Adds the entries of a record, or pairs of names and values. -/
def update (tolerances : Tolerances) (given : Datum) : Except Fault Tolerances := do
  return table (← (← tolerances.entries?).update given)

end Tolerances

/-- Defaults for a whole run. -/
structure Settings where
  logLevel : Datum
  maxIterations : Datum
  solverVerbosity : Datum
  tolerances : Tolerances

namespace Settings

/-- The level where none is set: that of the environment, else warnings. -/
def standardLevel (environment : Option String) : String :=
  Text.upper (environment.getD "WARNING")

/-- The settings where nothing is set. -/
def standard (environment : Option String) : Settings where
  logLevel := .text (standardLevel environment)
  maxIterations := .int 100
  solverVerbosity := .int 0
  tolerances := .table Tolerances.standard

/-- Settings with their level in upper case; a negative budget is refused. -/
def make (logLevel maxIterations solverVerbosity : Datum) (tolerances : Tolerances) :
    Except Fault Settings := do
  if ← maxIterations.lt (.int 0) then .error .budgetNegative
  else
    return { logLevel := .text (Text.upper logLevel.plain), maxIterations, solverVerbosity,
             tolerances }

/-- The tolerance of a name. -/
def tolerance (settings : Settings) (name : Datum) : Except Fault Datum :=
  settings.tolerances.get name

/-- The tolerance within which a covering value counts as zero. -/
def feasibility (settings : Settings) : Except Fault Datum :=
  settings.tolerance (.text "feasibility")

/-- Sets the tolerance of a name, which must not be negative. -/
def setTolerance (settings : Settings) (name value : Datum) : Except Fault Settings := do
  if ← value.lt (.int 0) then .error (.namedToleranceNegative name value)
  else return { settings with tolerances := ← settings.tolerances.set name value }

/-- The names of the settings. -/
def names : List String := ["log_level", "max_iterations", "solver_verbosity", "tolerances"]

/-- Settings by name, each taken as it is; no other names are known. -/
def ofFields (environment : Option String) (given : Datum) : Except Fault Settings := do
  given.requireKnown names
  let base := standard environment
  make ((given.field? "log_level").getD base.logLevel)
    ((given.field? "max_iterations").getD base.maxIterations)
    ((given.field? "solver_verbosity").getD base.solverVerbosity)
    (((given.field? "tolerances").map .ofGiven).getD base.tolerances)

/-- Settings from plain data: tolerances are added to the standard ones, the two numbers are read as
integers, and other names are passed over. -/
def read (environment : Option String) (given : Datum) : Except Fault Settings := do
  given.requireRecord
  let tolerances ←
    Table.update Tolerances.standard ((given.field? "tolerances").getD (.record []))
  let logLevel := (given.field? "log_level").getD (.text (standardLevel environment))
  let maxIterations ← ((given.field? "max_iterations").getD (.int 100)).integer
  let solverVerbosity ← ((given.field? "solver_verbosity").getD (.int 0)).integer
  make logLevel (.int maxIterations) (.int solverVerbosity) (.table tolerances)

/-- Settings with some of them replaced unchecked, tolerances being added. -/
def override (settings : Settings) (given : Datum) : Except Fault Settings := do
  return {
    logLevel := (given.field? "log_level").getD settings.logLevel
    maxIterations := (given.field? "max_iterations").getD settings.maxIterations
    solverVerbosity := (given.field? "solver_verbosity").getD settings.solverVerbosity
    tolerances := ← settings.tolerances.update ((given.field? "tolerances").getD (.record [])) }

end Settings

end PatternCovering
