import PatternCovering.Column.Pool
import PatternCovering.Cover.Solution
import PatternCovering.Item
import PatternCovering.Problem

/-!
# The covering problem over known columns

Every item has a row that asks for its demand; every column is a variable with its cost as objective
coefficient and its counts as coefficients in the rows. Columns are only added. The pool of columns
and the list of their variables grow together, after the engine has taken the variable and all of
its coefficients, so that a column that is refused on the way leaves both as they were.
-/

namespace PatternCovering

/-- Items to be covered by the columns of a pool, inside a problem. -/
structure Cover (ε α : Type) where
  items : List Item
  problem : Problem ε
  pool : ColumnPool α := {}
  handles : List Handle := []
  rows : List Handle := []
  /-- The latest solution of the linear relaxation. -/
  last : Option (CoverSolution α) := none

namespace Cover

variable {ε α : Type} [Quantity α]

/-- The number of items. -/
def numItems (cover : Cover ε α) : Nat := cover.items.length

/-- The number of columns. -/
def numColumns (cover : Cover ε α) : Nat := cover.pool.columns.length

/-- Whether the same column is known already. -/
def hasColumn (cover : Cover ε α) (column : Column α) : Except Fault Bool :=
  cover.pool.contains column

/-- Tells of an event. -/
def tell (cover : Cover ε α) (event : Event) : Cover ε α × Except Fault Unit :=
  let (problem, outcome) := cover.problem.tell event
  ({ cover with problem }, outcome)

/-- Whether coefficients may be added to a row. -/
def isModifiable (cover : Cover ε α) (row : Handle) : Bool :=
  (cover.problem.modifiable[row.index]?.getD (.flag false)).truthy

/-- The first row that a column uses although it is not modifiable. -/
def fixedRow? (cover : Cover ε α) (column : Column α) : Option Handle :=
  ((column.counts.zip cover.rows).find? fun (count, row) =>
    0 < count && !(cover.isModifiable row)).map (·.2)

/-- Refuses an identifier that is taken. -/
def checkId (cover : Cover ε α) (id : Datum) : Except Fault Unit := do
  match id with
  | .null => return
  | _ => if (← cover.pool.get id).isSome then .error (.columnIdPresent id)

/-- Refuses a column of the wrong length, a column that is known, an identifier that is taken, and a
column that uses a row that is not modifiable. -/
def checkColumn (cover : Cover ε α) (column : Column α) : Except Fault Unit := do
  if column.numItems ≠ cover.numItems then
    .error (.columnLength column.numItems cover.numItems)
  else if ← cover.hasColumn column then .error (.columnPresent column.pattern)
  else
    cover.checkId column.id
    match cover.fixedRow? column with
    | some row => .error (.rowFixed row.name)
    | none => return

/-- Writes the positive counts of a column as coefficients of its variable, one row after the other,
until the engine refuses one. -/
def writeCounts (engine : Engine ε α) (handle : Handle) :
    List (Nat × Handle) → Problem ε → Problem ε × Except Fault Unit
  | [], problem => (problem, .ok ())
  | (count, row) :: rest, problem =>
    if count = 0 then writeCounts engine handle rest problem
    else
      match problem.addCoefficient engine row.asConstraint handle.asVariable
          (Quantity.ofInt count) with
      | (written, .ok ()) => writeCounts engine handle rest written
      | (written, .error fault) => (written, .error fault)

/-- The identifier that a column has or is to get. -/
def idFor (cover : Cover ε α) (column : Column α) : Datum :=
  match column.id with
  | .null => cover.pool.nextId
  | id => id

/-- The name of the variable of a column: the one that is given, or else one made from the
identifier of the column, which then has to be writable. -/
def variableName (id name : Datum) : Except Fault Datum :=
  if name.truthy then .ok name
  else do
    return .text ("pat_" ++ (← id.written))

/-- The variable of a column: from zero on, at the cost of the column. -/
def variableOf (column : Column α) (name : Datum) : Variable α where
  name := name
  lower := some Quantity.zero
  upper := none
  objective := column.cost

/-- Puts a column into the pool once its variable stands, and gives the column as stored. -/
def store (cover : Cover ε α) (column : Column α) (handle : Handle) :
    Cover ε α × Except Fault (Column α) :=
  match cover.pool.add column with
  | (pool, .error fault) => ({ cover with pool }, .error fault)
  | (pool, .ok stored) =>
    let (told, outcome) := { cover with pool, handles := cover.handles ++ [handle] }.tell
      (.columnAdded stored.id stored.pattern)
    (told, outcome.map fun _ => stored)

/-- Adds a column as a variable with its coefficients, and gives the column as stored. The name is
that of the variable, nothing if it has none of its own. -/
def addColumn (engine : Engine ε α) (cover : Cover ε α) (column : Column α) (name : Datum) :
    Cover ε α × Except Fault (Column α) :=
  match cover.checkColumn column with
  | .error fault => (cover, .error fault)
  | .ok () =>
    let id := cover.idFor column
    match (do cover.problem.addVariable engine (variableOf column (← variableName id name))) with
    | .error fault => (cover, .error fault)
    | .ok (extended, handle) =>
      match writeCounts engine handle (column.counts.zip cover.rows) extended with
      | (written, .error fault) => ({ cover with problem := written }, .error fault)
      | (written, .ok ()) => { cover with problem := written }.store { column with id } handle

/-- Adds columns one after the other until one is refused, and gives them as stored. -/
def addColumns (engine : Engine ε α) (cover : Cover ε α) :
    List (Column α) → Cover ε α × Except Fault (List (Column α))
  | [] => (cover, .ok [])
  | column :: rest =>
    match cover.addColumn engine column .null with
    | (grown, .error fault) => (grown, .error fault)
    | (grown, .ok stored) =>
      match grown.addColumns engine rest with
      | (final, outcome) => (final, outcome.map (stored :: ·))

/-- Adds the row of each item from the one of index `first` on. -/
def addRows (engine : Engine ε α) (first : Nat) :
    List Item → Problem ε → List Handle → (Problem ε × List Handle) × Except Fault Unit
  | [], problem, rows => ((problem, rows), .ok ())
  | item :: rest, problem, rows =>
    match Quantity.real? (Quantity.ofInt item.demand) with
    | .error fault => ((problem, rows), .error fault)
    | .ok demand =>
      let row : Row α := ⟨.text s!"demand_{first}", some demand, none⟩
      match problem.addConstraint engine row [] (.flag true) with
      | (extended, .error fault) => ((extended, rows), .error fault)
      | (extended, .ok handle) => addRows engine (first + 1) rest extended (rows ++ [handle])

/-- Adds the column with one copy of an item for each of the given items. -/
def seed (engine : Engine ε α) (cover : Cover ε α) :
    (items : List Nat) → Cover ε α × Except Fault Unit
  | [] => (cover, .ok ())
  | item :: rest =>
    match cover.addColumn engine (Column.single cover.numItems item) (.text s!"init_{item}") with
    | (grown, .error fault) => (grown, .error fault)
    | (grown, .ok _) => grown.seed engine rest

/-- Builds the rows of some items in a new problem and, if asked to, the column of each single
item. -/
def build (engine : Engine ε α) (problem : Problem ε) (items : List Item) (name : Datum)
    (seeded : Bool) : Cover ε α × Except Fault Unit :=
  let bare : Cover ε α := { items, problem }
  if items.isEmpty then (bare, .error .noItems)
  else
    match problem.create engine name .minimize with
    | (created, .error fault) => ({ bare with problem := created }, .error fault)
    | (created, .ok ()) =>
      match addRows engine 0 items created [] with
      | ((ruled, rows), .error fault) => ({ bare with problem := ruled, rows }, .error fault)
      | ((ruled, rows), .ok ()) =>
        let cover := { bare with problem := ruled, rows }
        if seeded then cover.seed engine (List.range items.length) else (cover, .ok ())

/-- The values of columns that are not within a tolerance of zero, by their identifiers. -/
def readValues (engine : Engine ε α) (problem : Problem ε) (tolerance : α) :
    List (Column α × Handle) → Except Fault (Table α)
  | [] => .ok []
  | (column, handle) :: rest => do
    let value ← problem.primal engine handle.asVariable
    let isUsed ← Quantity.lt? tolerance (← Quantity.abs? value)
    let others ← readValues engine problem tolerance rest
    return if isUsed then (column.id, value) :: others else others

/-- The solution that the engine holds, without duals. -/
def collect (engine : Engine ε α) (cover : Cover ε α) (tolerance : α) (isIntegerSolve : Bool) :
    Except Fault (CoverSolution α) := do
  let objective ← cover.problem.objective engine
  let values ←
    readValues engine cover.problem tolerance (cover.pool.columns.zip cover.handles)
  return {
    status := .optimal, objective, values, numColumns := cover.numColumns, isIntegerSolve }

/-- The solution of the linear relaxation that the engine holds, with one dual for each item. -/
def collectRelaxed (engine : Engine ε α) (cover : Cover ε α) (tolerance : α) :
    Except Fault (CoverSolution α) := do
  let solution ← cover.collect engine tolerance false
  let duals ← cover.rows.mapM fun row => cover.problem.dual engine row.asConstraint
  return { solution with duals }

/-- Solves the linear relaxation. The solution, with one dual for each item, becomes the latest
one. -/
def solveRelaxation (engine : Engine ε α) (cover : Cover ε α) (tolerance : α) :
    Cover ε α × Except Fault (CoverSolution α) :=
  match cover.problem.solve engine with
  | (solved, .error fault) => ({ cover with problem := solved }, .error fault)
  | (solved, .ok status) =>
    let cover : Cover ε α := { cover with problem := solved }
    if status = .optimal then
      match cover.collectRelaxed engine tolerance with
      | .error fault => (cover, .error fault)
      | .ok solution => ({ cover with last := some solution }, .ok solution)
    else (cover, .error (.relaxationFailed status))

/-- Makes the variables of all columns integer, or all of them continuous. -/
def setIntegers (engine : Engine ε α) (isInteger : Bool) :
    List Handle → Problem ε → Problem ε × Except Fault Unit
  | [], problem => (problem, .ok ())
  | handle :: rest, problem =>
    match problem.setInteger engine handle.asVariable (.flag isInteger) with
    | .error fault => (problem, .error fault)
    | .ok changed => setIntegers engine isInteger rest changed

/-- Solves the integer restriction to the known columns. Whatever comes of it, all variables are
continuous again afterwards. -/
def solveRestriction (engine : Engine ε α) (cover : Cover ε α) (tolerance : α) :
    Cover ε α × Except Fault (CoverSolution α) :=
  match setIntegers engine true cover.handles cover.problem with
  | (changed, .error fault) => ({ cover with problem := changed }, .error fault)
  | (changed, .ok ()) =>
    let (solved, outcome) := changed.solve engine
    let solution := do
      let status ← outcome
      if status = .optimal then
        collect engine { cover with problem := solved } tolerance true
      else .error (.restrictionFailed status)
    match setIntegers engine false cover.handles solved with
    | (restored, .error fault) => ({ cover with problem := restored }, .error fault)
    | (restored, .ok ()) => ({ cover with problem := restored }, solution)

/-- The duals of the latest solution of the relaxation, one for each item. -/
def dualVector (cover : Cover ε α) : Except Fault (List α) :=
  match cover.last with
  | some solution => .ok solution.duals
  | none => .error .relaxationMissing

/-- Those of some columns that have a value above a tolerance, each carrying its value. -/
def usedColumns (solution : CoverSolution α) (tolerance : α) :
    List (Column α) → Except Fault (List (Column α))
  | [] => .ok []
  | column :: rest => do
    let value := solution.valueOf column.id
    let isUsed ← Quantity.lt? tolerance value
    let others ← usedColumns solution tolerance rest
    return if isUsed then { column with value := some value } :: others else others

/-- The columns with a value above a tolerance, each carrying its value. -/
def activeColumns (cover : Cover ε α) (solution : CoverSolution α) (tolerance : α) :
    Except Fault (List (Column α)) :=
  usedColumns solution tolerance cover.pool.columns

/-- The cover as it is shown. -/
def shown (cover : Cover ε α) : String :=
  s!"CoveringMaster(items={cover.numItems}, columns={cover.numColumns})"

end Cover

end PatternCovering
