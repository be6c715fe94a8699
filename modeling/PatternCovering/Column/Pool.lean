import PatternCovering.Column

/-!
# Column pools

A pool keeps columns in the order in which they were added, each under its own identifier. A column
without an identifier gets the next free one. Columns are never removed.
-/

namespace PatternCovering

/-- Columns in the order in which they were added, and the next free identifier. -/
structure ColumnPool (α : Type) where
  columns : List (Column α) := []
  nextId : Datum := .int 0

namespace ColumnPool

variable {α : Type} [Quantity α]

/-- The latest column with the given identifier. -/
def find? (pool : ColumnPool α) (id : Datum) : Option (Column α) :=
  pool.columns.reverse.find? (·.id.same id)

/-- The column with the given identifier, which must be a key. -/
def get (pool : ColumnPool α) (id : Datum) : Except Fault (Option (Column α)) := do
  id.requireKey
  return pool.find? id

/-- Whether the pool has the same column. -/
def contains (pool : ColumnPool α) (column : Column α) : Except Fault Bool := do
  Quantity.requireKey column.cost
  return pool.columns.any (·.same column)

/-- The next free identifier once one is taken. -/
def idAfter (nextId id : Datum) : Except Fault Datum := do
  let following ← id.add (.int 1)
  return if ← nextId.lt following then following else nextId

/-- Puts a column with an identifier at the end. A cost that cannot be a key is noticed only when
the column is in the pool already. -/
def append (pool : ColumnPool α) (column : Column α) : ColumnPool α × Except Fault (Column α) :=
  match idAfter pool.nextId column.id with
  | .error fault => (pool, .error fault)
  | .ok nextId =>
    ({ columns := pool.columns ++ [column], nextId },
      (Quantity.requireKey column.cost).map fun _ => column)

/-- Adds a column under its own identifier, or under the next free one if it has none, and gives the
column as stored. -/
def add (pool : ColumnPool α) (column : Column α) : ColumnPool α × Except Fault (Column α) :=
  match column.id with
  | .null => pool.append { column with id := pool.nextId }
  | id =>
    match pool.get id with
    | .error fault => (pool, .error fault)
    | .ok (some _) => (pool, .error (.idTaken id))
    | .ok none => pool.append column

/-- The columns that use the item at a position. -/
def covering {ι : Type} [Position ι] (pool : ColumnPool α) (item : ι) :
    Except Fault (List (Column α)) :=
  pool.columns.filterM fun column => do
    return 0 < (← column.count item)

/-- The pool as it is shown. -/
def shown (pool : ColumnPool α) : String := s!"ColumnPool(size={pool.columns.length})"

end ColumnPool

end PatternCovering
