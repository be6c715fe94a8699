import PatternCovering.Offer

/-!
# Knapsack pricing

The best pattern under a vector of duals, where the only restriction is the total width: an
unbounded knapsack. A table over the widths from zero to the capacity holds the best value of a fill
and the last item that improved it. A smaller width is filled before a larger one, so that an item
may be used again. The best value may be reached below the capacity; the smallest width that reaches
it is taken, and the pattern is read off by following the items back.
-/

namespace PatternCovering

/-- Items of positive widths and a capacity for their total width. -/
structure Knapsack (α : Type) where
  widths : List Nat
  capacity : Nat
  settings : PricingSettings α
  widths_pos : ∀ width ∈ widths, 0 < width

namespace Knapsack

variable {α : Type} [Quantity α]

/-- The best value of a fill of some width, and the item that improved it last. -/
structure Cell (α : Type) where
  value : α
  choice : Option Nat

/-- The cell of the empty fill. -/
def Cell.start : Cell α := ⟨Quantity.zero, none⟩

/-- The value of the cell for a width, that of the empty fill outside the table. -/
def valueAt (table : Array (Cell α)) (width : Nat) : α :=
  match table[width]? with
  | some cell => cell.value
  | none => Quantity.zero

/-- The cell of a fill of the given width after trying to end it with an item of another. -/
def improve (table : Array (Cell α)) (width : Nat) (cell : Cell α) (item itemWidth : Nat)
    (dual : α) : Cell α :=
  if itemWidth ≤ width then
    let value := Quantity.add (valueAt table (width - itemWidth)) dual
    if Quantity.lt cell.value value then ⟨value, some item⟩ else cell
  else cell

/-- The cell for a width from the cells of all smaller ones: the items are tried in order. -/
def fill (table : Array (Cell α)) (items : List (Nat × Nat × α)) (width : Nat) : Cell α :=
  items.foldl (fun cell (item, itemWidth, dual) => improve table width cell item itemWidth dual)
    Cell.start

/-- The items with their indices, widths and duals. -/
def itemsOf (widths : List Nat) (duals : List α) : List (Nat × Nat × α) :=
  (List.range widths.length).zip (widths.zip duals)

/-- The table of the cells for all widths up to the capacity. -/
def tableOf (widths : List Nat) (duals : List α) (capacity : Nat) : Array (Cell α) :=
  let items := itemsOf widths duals
  (List.range capacity).foldl (fun table width => table.push (fill table items (width + 1)))
    #[Cell.start]

/-- The smallest width with the best value. -/
def bestWidth (table : Array (Cell α)) (capacity : Nat) : Nat :=
  (List.range capacity).foldl (fun best width =>
    if Quantity.lt (valueAt table best) (valueAt table (width + 1)) then width + 1 else best) 0

/-- The counts of the items on the way back from a width, in at most `steps` steps. -/
def unwind (table : Array (Cell α)) (widths : List Nat) : (steps width : Nat) → List Nat → List Nat
  | 0, _, counts => counts
  | steps + 1, width, counts =>
    if width = 0 then counts
    else
      match table[width]?.bind (·.choice) with
      | none => counts
      | some item =>
        unwind table widths steps (width - widths[item]?.getD 0) (counts.modify item (· + 1))

/-- The number of items. -/
def numItems (knapsack : Knapsack α) : Nat := knapsack.widths.length

/-- The table for a vector of duals. -/
def table (knapsack : Knapsack α) (duals : List α) : Array (Cell α) :=
  tableOf knapsack.widths duals knapsack.capacity

/-- The width at which the best pattern of a table is found. -/
def chosenWidth (knapsack : Knapsack α) (table : Array (Cell α)) : Nat :=
  bestWidth table knapsack.capacity

/-- The pattern that a table gives for a width, as a column. -/
def columnAt (knapsack : Knapsack α) (table : Array (Cell α)) (width : Nat) : Column α :=
  { counts := unwind table knapsack.widths width width (List.replicate knapsack.numItems 0)
    cost := knapsack.settings.unitCost }

/-- The offer for a vector of duals, with what is reported about it. -/
def price (knapsack : Knapsack α) (duals : List α) : Except Fault (Offer α × List Event) := do
  let duals ← readDuals (knapsack.numItems : Int) duals
  let table := knapsack.table duals
  let width := knapsack.chosenWidth table
  let column := knapsack.columnAt table width
  let reducedCost ← column.reducedCostUnder duals
  let value := Quantity.report (valueAt table width)
  return (Offer.ofColumn column reducedCost .optimal,
    [.knapsackFilled value width column.pattern])

/-- Refuses a capacity whose table would have more widths than a list can have, or more than there is
room for. -/
def requireRoom (knapsack : Knapsack α) (room : Nat) : Except Fault Unit :=
  if Datum.mostCopies ≤ knapsack.capacity then .error .sizeTooLarge
  else if room ≤ knapsack.capacity then .error .outOfMemory
  else .ok ()

/-- The offer for a vector of duals, if there is room for the table. The duals are read before the
room is looked for. -/
def priceInRoom (knapsack : Knapsack α) (room : Nat) (duals : List α) :
    Except Fault (Offer α × List Event) := do
  let _ ← readDuals (knapsack.numItems : Int) duals
  knapsack.requireRoom room
  knapsack.price duals

/-- The oracle as it is shown. -/
def shown (knapsack : Knapsack α) : String :=
  s!"KnapsackPricing(items={knapsack.numItems}, capacity={knapsack.capacity})"

end Knapsack

end PatternCovering
