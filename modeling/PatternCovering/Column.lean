import PatternCovering.Datum.Written
import PatternCovering.Quantity

/-!
# Columns

A column is a pattern with its cost in the objective. It may carry the identifier it has in a pool,
the reduced cost at which it was priced, its value in a solution, free attributes, and the path of
arcs it was read off. Two columns are equal when their counts and their costs are.
-/

namespace PatternCovering

/-- The arcs of the path that a column was read off, and the resources used along it. -/
structure Trail (α : Type) where
  arcs : List Datum
  resources : List α

/-- A pattern with its cost. -/
structure Column (α : Type) where
  counts : List Nat
  cost : α
  /-- The identifier, nothing if there is none yet. -/
  id : Datum := .null
  reducedCost : Option α := none
  value : Option α := none
  attributes : Table Datum := []
  trail : Option (Trail α) := none

namespace Column

variable {α : Type} [Quantity α]

/-- The column that uses no item. -/
def empty (numItems : Nat) (cost : α) : Column α := { counts := List.replicate numItems 0, cost }

/-- The column with one copy of one item, at the cost of one. -/
def single (numItems item : Nat) : Column α :=
  { counts := (List.replicate numItems 0).set item 1, cost := Quantity.one }

/-- The number of items of the pattern. -/
def numItems (column : Column α) : Nat := column.counts.length

/-- Whether no item is used. -/
def isEmpty (column : Column α) : Bool := column.counts.all (· == 0)

/-- The items that occur, with their counts. -/
def pattern (column : Column α) : Pattern := Pattern.ofCounts column.counts

/-- The items that occur. -/
def covered (column : Column α) : List Nat := column.pattern.map (·.1)

/-- Whether the column has a value in the solution above one millionth. -/
def isInSolution (column : Column α) : Except Fault Bool :=
  match column.value with
  | some value => Quantity.lt? (Quantity.ofDecimal 1 6) value
  | none => .ok false

/-- The count of the item at a position, a negative one counting from the end. -/
def count {ι : Type} [Position ι] (column : Column α) (item : ι) : Except Fault Nat :=
  Position.entry column.counts item

/-- The counts as quantities. -/
def amounts (column : Column α) : List α :=
  column.counts.map fun count : Nat => Quantity.ofInt count

/-- The total width under the given widths of the items. -/
def width (column : Column α) (widths : List α) : Except Fault α :=
  Quantity.dot? column.amounts widths

/-- Whether the total width is within a capacity. -/
def fits (column : Column α) (widths : List α) (capacity : α) : Except Fault Bool := do
  Quantity.le? (← column.width widths) capacity

/-- The value of the pattern under the given duals of the items. -/
def dualValue (column : Column α) (duals : List α) : Except Fault α :=
  if duals.length ≠ column.numItems then
    .error (.dualsNotForPattern duals.length column.numItems)
  else Quantity.dot? duals column.amounts

/-- The cost less the value of the pattern under the given duals. -/
def reducedCostUnder (column : Column α) (duals : List α) : Except Fault α := do
  Quantity.sub? column.cost (← column.dualValue duals)

/-- Whether two columns have equal counts and equal costs. -/
def equal (left right : Column α) : Bool :=
  left.counts == right.counts && Quantity.eq left.cost right.cost

/-- Whether two columns are the same in a pool: their costs are compared as keys. -/
def same (left right : Column α) : Bool :=
  left.counts == right.counts && Quantity.same left.cost right.cost

/-- An optional quantity with four places after a heading, or nothing. -/
def labelled (heading : String) : Option α → Except Fault String
  | none => .ok ""
  | some value => do
    return heading ++ (← (Quantity.report value).fixed 4)

/-- The column as it is shown: its pattern, its cost, and its value and reduced cost if known. -/
def shown (column : Column α) : Except Fault String := do
  let value ← labelled ", value=" column.value
  let reduced ← labelled ", rc=" column.reducedCost
  let cost ← (Quantity.report column.cost).fixed 2
  return s!"Column({column.pattern.shown}, cost={cost}{value}{reduced})"

end Column

end PatternCovering
