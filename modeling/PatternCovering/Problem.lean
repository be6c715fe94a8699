import PatternCovering.Engine
import PatternCovering.Journal

/-!
# Problems

A problem keeps the books on a model inside an engine. It hands out handles for variables and
constraints, checks them and every bound before the engine is touched, lets coefficients be added
only to constraints that are marked modifiable, and gives values only while the latest solve was
optimal and nothing has changed since.
-/

namespace PatternCovering

/-- The books on a model whose engine has a state of type `ε`. -/
structure Problem (ε : Type) where
  engine : ε
  /-- The name, nothing before the problem is created. -/
  name : Datum := .null
  sense : Sense := .minimize
  vars : List Handle := []
  constraints : List Handle := []
  /-- For each constraint, whether coefficients may be added to it, as it was given. -/
  modifiable : List Datum := []
  status : Status := .notSolved
  journal : Journal := #[]
  listener : Listener := Listener.deaf

namespace Problem

variable {ε α : Type} [Quantity α]

/-- Whether the problem was created. -/
def isCreated (problem : Problem ε) : Bool :=
  match problem.name with
  | .null => false
  | _ => true

/-- Refuses a problem that was not created yet. -/
def requireCreated (problem : Problem ε) : Except Fault Unit :=
  if problem.isCreated then .ok () else .error .problemMissing

/-- Refuses to read values unless the latest solve was optimal and nothing changed since. -/
def requireSolution (problem : Problem ε) : Except Fault Unit :=
  if problem.status = .optimal then .ok () else .error (.noSolution problem.status)

/-- The index of one among a number of handles, as it was given: it is not below zero and not beyond
the last one. -/
def checkIndex (count : Nat) (index : Datum) (unknown : Fault) : Except Fault Datum := do
  if ← index.lt (.int 0) then .error unknown
  else if ← (Datum.int count).le index then .error unknown
  else return index

/-- The index of the variable that a reference stands for. -/
def checkVariable (problem : Problem ε) (given : Reference) : Except Fault Datum :=
  match given with
  | .ofVariable index _ => checkIndex problem.vars.length index (.unknownVariable given)
  | _ => .error (.notVariable given)

/-- The index of the constraint that a reference stands for. -/
def checkConstraint (problem : Problem ε) (given : Reference) : Except Fault Datum :=
  match given with
  | .ofConstraint index _ => checkIndex problem.constraints.length index (.unknownConstraint given)
  | _ => .error (.notConstraint given)

/-- Adds an event to the journal. -/
def record (problem : Problem ε) (event : Event) : Problem ε :=
  { problem with journal := problem.journal.push event }

/-- Tells the listener of an event and adds it to the journal, unless the listener fails. -/
def tell (problem : Problem ε) (event : Event) : Problem ε × Except Fault Unit :=
  match problem.listener event with
  | .error fault => (problem, .error fault)
  | .ok () => (problem.record event, .ok ())

/-- The crossed bounds, if the lower one is above the upper one. An infinite bound crosses none, but
has to be comparable with the other one. -/
def crossed? (lower upper : Option α) : Except Fault (Option (Datum × Datum)) := do
  match lower, upper with
  | some low, some high =>
    if ← Quantity.lt? high low then return some (Quantity.report low, Quantity.report high)
    else return none
  | some bound, none | none, some bound =>
    let _ ← Quantity.lt? bound Quantity.zero
    return none
  | none, none => return none

/-- Creates the empty problem, once. If the engine fails, the problem is created all the same. -/
def create (engine : Engine ε α) (problem : Problem ε) (name : Datum) (sense : Sense) :
    Problem ε × Except Fault Unit :=
  if problem.isCreated then (problem, .error (.problemExists problem.name))
  else
    match engine.create problem.engine sense with
    | (state, .error fault) => ({ problem with engine := state, name, sense }, .error fault)
    | (state, .ok ()) =>
      ({ problem with engine := state, name, sense }.record (.problemCreated name sense), .ok ())

/-- Adds a variable and gives its handle. -/
def addVariable (engine : Engine ε α) (problem : Problem ε) (added : Variable α) :
    Except Fault (Problem ε × Handle) := do
  problem.requireCreated
  match ← crossed? added.lower added.upper with
  | some (low, high) => .error (.boundsCrossed added.name low high)
  | none =>
    let handle : Handle := ⟨problem.vars.length, added.name⟩
    return ({ problem with
              engine := ← engine.addVariable problem.engine added
              vars := problem.vars ++ [handle]
              status := .notSolved }, handle)

/-- Refuses a constraint without terms that stays without them, and one with crossed bounds. -/
def checkRow (problem : Problem ε) (row : Row α) (hasTerms modifiable : Bool) :
    Except Fault Unit := do
  problem.requireCreated
  if !hasTerms && !modifiable then .error (.termsMissing row.name)
  else
    match ← crossed? row.lower row.upper with
    | some (low, high) => .error (.sidesCrossed row.name low high)
    | none => return

/-- The terms of a constraint by the indices of their variables, with real coefficients. -/
def checkTerms (problem : Problem ε) : List (Reference × α) → Except Fault (List (Datum × α))
  | [] => .ok []
  | (given, amount) :: rest => do
    let column ← problem.checkVariable given
    let coefficient ← Quantity.real? amount
    return (column, coefficient) :: (← problem.checkTerms rest)

/-- The terms of a constraint that is neither without use nor refused for its bounds. -/
def checkConstraintParts (problem : Problem ε) (row : Row α) (terms : List (Reference × α))
    (modifiable : Datum) : Except Fault (List (Datum × α)) := do
  problem.checkRow row (!terms.isEmpty) modifiable.truthy
  problem.checkTerms terms

/-- Adds a constraint and gives its handle. If the engine fails, its state is kept as it left it. -/
def addConstraint (engine : Engine ε α) (problem : Problem ε) (row : Row α)
    (terms : List (Reference × α)) (modifiable : Datum) : Problem ε × Except Fault Handle :=
  match problem.checkConstraintParts row terms modifiable with
  | .error fault => (problem, .error fault)
  | .ok checked =>
    match engine.addRow problem.engine row checked with
    | (state, .error fault) => ({ problem with engine := state }, .error fault)
    | (state, .ok ()) =>
      let handle : Handle := ⟨problem.constraints.length, row.name⟩
      ({ problem with
         engine := state
         constraints := problem.constraints ++ [handle]
         modifiable := problem.modifiable ++ [modifiable]
         status := .notSolved }, .ok handle)

/-- Allows or forbids adding coefficients to a constraint. -/
def setModifiable (problem : Problem ε) (given : Reference) (modifiable : Datum) :
    Except Fault (Problem ε) := do
  let row ← Position.place problem.modifiable.length (← problem.checkConstraint given)
  return { problem with modifiable := problem.modifiable.set row modifiable }

/-- Whether coefficients may be added to a constraint, as it was given. -/
def modifiableAt (problem : Problem ε) (given : Reference) : Except Fault Datum := do
  Position.entry problem.modifiable (← problem.checkConstraint given)

/-- The name under which a reference was handed over. -/
def nameOf : Reference → Datum
  | .ofVariable _ name => name
  | .ofConstraint _ name => name
  | .ofData _ => .null

/-- The row and the column of an entry to which a coefficient may be added. -/
def checkEntry (problem : Problem ε) (row column : Reference) : Except Fault (Datum × Datum) := do
  let rowIndex ← problem.checkConstraint row
  let columnIndex ← problem.checkVariable column
  if (← problem.modifiableAt row).truthy then return (rowIndex, columnIndex)
  else .error (.constraintFixed (nameOf row))

/-- Adds a coefficient of a variable to a modifiable constraint. If the engine fails, its state is
kept as it left it. -/
def addCoefficient (engine : Engine ε α) (problem : Problem ε) (row column : Reference)
    (amount : α) : Problem ε × Except Fault Unit :=
  match problem.checkEntry row column, Quantity.real? amount with
  | .error fault, _ => (problem, .error fault)
  | .ok _, .error fault => (problem, .error fault)
  | .ok (rowIndex, columnIndex), .ok coefficient =>
    match engine.addCoefficient problem.engine rowIndex columnIndex coefficient with
    | (state, .error fault) => ({ problem with engine := state }, .error fault)
    | (state, .ok ()) => ({ problem with engine := state, status := .notSolved }, .ok ())

/-- Makes a variable integer or continuous. -/
def setInteger (engine : Engine ε α) (problem : Problem ε) (given : Reference)
    (isInteger : Datum) : Except Fault (Problem ε) := do
  let column ← problem.checkVariable given
  return { problem with
    engine := ← engine.setInteger problem.engine column isInteger, status := .notSolved }

/-- Solves the model as it is. If the engine fails, the status is kept. -/
def solve (engine : Engine ε α) (problem : Problem ε) : Problem ε × Except Fault Status :=
  match problem.requireCreated with
  | .error fault => (problem, .error fault)
  | .ok () =>
    match engine.solve problem.engine with
    | (state, .error fault) => ({ problem with engine := state }, .error fault)
    | (state, .ok status) =>
      ({ problem with engine := state, status }.record (.problemSolved problem.name status),
        .ok status)

/-- The optimal objective, none if the engine has no value for it. -/
def objective (engine : Engine ε α) (problem : Problem ε) : Except Fault (Option α) := do
  problem.requireSolution
  engine.objective problem.engine

/-- The dual of a constraint in the optimal solution. -/
def dual (engine : Engine ε α) (problem : Problem ε) (given : Reference) : Except Fault α := do
  let row ← problem.checkConstraint given
  problem.requireSolution
  engine.dual problem.engine row

/-- The value of a variable in the optimal solution. -/
def primal (engine : Engine ε α) (problem : Problem ε) (given : Reference) : Except Fault α := do
  let column ← problem.checkVariable given
  problem.requireSolution
  engine.primal problem.engine column

end Problem

end PatternCovering
