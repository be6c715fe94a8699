import PatternCovering.Column

/-!
# Columns from plain data

A column is given by its counts, by the items that occur with their counts, or as the empty column
of a number of items. Counts must be whole and not negative; all else is kept as it is given.
-/

namespace PatternCovering

/-- The counts of the items from `first` on, from plain data. -/
def readCountsFrom (first : Nat) : List Datum → Except Fault (List Nat)
  | [] => .ok []
  | given :: rest => do
    match ← given.whole? with
    | none => .error (.countInvalid first given)
    | some count =>
      if count < 0 then .error (.countInvalid first given)
      else return count.toNat :: (← readCountsFrom (first + 1) rest)

/-- The counts of a pattern from plain data. -/
def readCounts (given : List Datum) : Except Fault (List Nat) := readCountsFrom 0 given

/-- The dense counts, not yet checked, of items given with their counts. -/
def spreadCounts (numItems : Datum) : Table Datum → List Datum → Except Fault (List Datum)
  | [], counts => .ok counts
  | (item, count) :: rest, counts => do
    if (← item.lt (.int 0)) || (← numItems.le item) then
      .error (.itemOutOfRange item numItems)
    else
      let place ← Position.place counts.length item
      spreadCounts numItems rest (counts.set place count)

/-- The counts of a pattern from items given with their counts. -/
def readSparseCounts (entries : Table Datum) (numItems : Datum) : Except Fault (List Nat) := do
  readCounts (← spreadCounts numItems entries (List.replicate (← numItems.size) (.int 0)))

namespace Column

/-- The cost of a column, one if none is given. -/
def readCost (spec : Datum) : Datum := (spec.field? "cost").getD Quantity.one

/-- A column from its counts and what else the data gives of it. -/
def withFields (counts : List Nat) (spec : Datum) : Except Fault (Column Datum) := do
  let attributes ←
    match spec.field? "attributes" with
    | none => .ok []
    | some given => Table.update [] given
  return { counts, cost := readCost spec, id := (spec.field? "column_id").getD .null
           reducedCost := Datum.present? (spec.field? "reduced_cost")
           value := Datum.present? (spec.field? "value"), attributes }

/-- A column from plain data. -/
def read (spec : Datum) : Except Fault (Column Datum) := do
  match spec.field? "counts", spec.field? "mapping", spec.field? "empty" with
  | some counts, _, _ => withFields (← readCounts (← counts.elements)) spec
  | none, some mapping, _ =>
    let entries ← Table.update [] mapping
    withFields (← readSparseCounts entries ((spec.field? "num_items").getD .null)) spec
  | none, none, some numItems => return empty (← numItems.size) (readCost spec)
  | none, none, none => .error .wrongType

end Column

end PatternCovering
