import PatternCovering.Column.Reader
import PatternCovering.Datum.Field
import PatternCovering.Generation
import PatternCovering.Settings

/-!
# Settings and results of column generation from plain data
-/

namespace PatternCovering

/-- The rounds of a result from the one of a number on. -/
def readRounds (number : Nat) : List Datum → Except Fault (List RoundSheet)
  | [] => .ok []
  | given :: rest => do
    match ← given.elements with
    | [objective, reducedCost, added, total] =>
      return ⟨number, objective, reducedCost, added, total⟩ :: (← readRounds (number + 1) rest)
    | parts => .error (Datum.misfit 4 parts)

/-- A result from plain data, with the parts that are reported as they were given. -/
def Outcome.read (given : Datum) : Except Fault (Outcome Datum × OutcomeSheet) := do
  let status ← given.namedField "status" GenerationStatus.ofName? .notSolved
  let columns ← (← given.elementsField "columns").mapM Column.read
  let integerColumns ← (← given.elementsField "ip_columns").mapM Column.read
  let history ← readRounds 1 (← given.elementsField "history")
  return ({ status, columns, integerColumns
            converged := given.flagField "converged" false
            objective := given.presentField? "objective_value"
            integerObjective := given.presentField? "ip_objective" },
    { converged := given.getOr "converged" (.flag false)
      totalColumns := given.getOr "total_columns" (.int 0)
      rounds := given.getOr "iterations" (.int 0)
      history })

namespace GenerationSettings

/-- Refuses data that names anything but settings of a run. -/
def checkNames : Datum → Except Fault Unit
  | .null => .ok ()
  | given => given.requireKnown ["max_iterations", "optimality_tolerance", "solve_ip", "verbose"]

/-- Settings from plain data, with the defaults of the whole run; no other names are known. -/
def read (defaults : Settings) (given : Datum) : Except Fault (GenerationSettings Datum) := do
  checkNames given
  let usual ← defaults.tolerance (.text "reduced_cost")
  make (given.getOr "max_iterations" defaults.maxIterations)
    (given.getOr "optimality_tolerance" usual) (given.getOr "solve_ip" (.flag false))
    (given.getOr "verbose" (.flag false))

/-- The names under which a call gives settings, with those that the settings have. -/
def callNames : List (String × String) :=
  [("max_iterations", "max_iterations"), ("tolerance", "optimality_tolerance"),
    ("solve_ip", "solve_ip"), ("verbose", "verbose")]

/-- Settings of a call, which may give other things as well; what is nothing is not given. -/
def readCall (defaults : Settings) (given : Datum) : Except Fault (GenerationSettings Datum) :=
  read defaults (.record (callNames.filterMap fun (name, setting) =>
    (given.presentField? name).map (setting, ·)))

end GenerationSettings

/-- An observer who ends a run at a round that is not before the given one. -/
def Observer.read (given : Datum) : Observer Datum := fun round =>
  (Datum.int round.number).lt (given.get "stop_at")

end PatternCovering
