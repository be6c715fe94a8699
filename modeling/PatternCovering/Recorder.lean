import PatternCovering.Engine

/-!
# A recording engine

An engine that only records the model and answers from a script: each solve takes the next scene,
and the last scene is repeated. It shows what a run asks of an engine without solving anything.
-/

namespace PatternCovering

/-- What one solve reports: its outcome, objective and duals, and the values of the variables unless
they are left to the recorder. What a scene does not have is a fault of asking for it. -/
structure Scene (α : Type) where
  status : Status
  objective : Except Fault (Option α)
  dual : (row : Datum) → Except Fault α
  primal : Option ((column : Datum) → Except Fault α) := none

/-- The values of variables where nothing else is said: one for the first variable and zero for all
others. -/
def usualValue {α : Type} [Quantity α] (column : Datum) : Except Fault α :=
  .ok (if column.eq (.int 0) then Quantity.one else Quantity.zero)

/-- A model with the script of its solves. -/
structure Recorder (α : Type) where
  model : Model α := {}
  script : List (Scene α)
  /-- The values of the variables where a scene has none. -/
  primal : (column : Datum) → Except Fault α
  /-- The number of solves so far. -/
  solves : Nat := 0
  /-- Whether a coefficient is refused on a row. -/
  refuses : (row : Datum) → Except Fault Bool := fun _ => .ok false

namespace Recorder

variable {α : Type} [Quantity α]

/-- The scene of the solve of a number, counted from zero; the last one is repeated. -/
def sceneAt (recorder : Recorder α) (number : Nat) : Except Fault (Scene α) :=
  match recorder.script[min number (recorder.script.length - 1)]? with
  | some scene => .ok scene
  | none => .error .indexOutOfRange

/-- The scene of the latest solve. -/
def current (recorder : Recorder α) : Except Fault (Scene α) :=
  recorder.sceneAt (recorder.solves - 1)

/-- Takes the next scene; without any, nothing is solved. -/
def advance (recorder : Recorder α) : Recorder α × Except Fault Status :=
  match recorder.sceneAt recorder.solves with
  | .error fault => (recorder, .error fault)
  | .ok scene => ({ recorder with solves := recorder.solves + 1 }, .ok scene.status)

/-- The engine that records and answers from the script. -/
def engine : Engine (Recorder α) α where
  create recorder sense := ({ recorder with model := { sense } }, .ok ())
  addVariable recorder added := .ok { recorder with model := recorder.model.addVariable added }
  addRow recorder row terms := ({ recorder with model := recorder.model.addRow row terms }, .ok ())
  addCoefficient recorder row column amount :=
    match recorder.refuses row with
    | .error fault => (recorder, .error fault)
    | .ok true => (recorder, .error .coefficientRejected)
    | .ok false =>
      ({ recorder with model := recorder.model.addCoefficient row column amount }, .ok ())
  setInteger recorder column isInteger := do
    let place ← Position.place recorder.model.vars.length column
    return { recorder with model := recorder.model.setInteger place isInteger }
  solve := advance
  objective recorder := do
    (← recorder.current).objective
  dual recorder row := do
    (← recorder.current).dual row
  primal recorder column := do
    (((← recorder.current).primal).getD recorder.primal) column

end Recorder

end PatternCovering
