import PatternCovering.CuttingStock.Solution

/-!
# Checking cutting plans

A plan is checked against its instance without looking at how it was found: its patterns have to
fit into a roll, what they cut has to meet every demand, and the number of rolls has to be in line
with the bounds on it. A tolerance is allowed for rounding.
-/

namespace PatternCovering

variable {α : Type} [Quantity α]

namespace CuttingStock

/-- Whether a pattern fits into a roll. -/
def fitsRoll (stock : CuttingStock) (pattern : Pattern) : Bool :=
  total (pattern.map fun (item, count) => count * stock.widths.getD item 0) ≤ stock.capacity

/-- How often an item is cut by patterns that are used some number of times. -/
def supply (patterns : List (Pattern × α)) (item : Nat) : α :=
  patterns.foldl (fun total (pattern, usage) =>
    Quantity.add total (Quantity.mul (Quantity.ofInt (pattern.count item)) usage)) Quantity.zero

/-- Whether patterns that are used some number of times meet every demand. -/
def meetsDemands (stock : CuttingStock) (patterns : List (Pattern × α)) (tolerance : α) : Bool :=
  (List.range stock.numItems).all fun item =>
    Quantity.le (Quantity.sub (Quantity.ofInt (stock.demands.getD item 0)) tolerance)
      (supply patterns item)

end CuttingStock

namespace CuttingPlan

/-- Whether the number of rolls is not below its lower bound. -/
def isAboveBound (plan : CuttingPlan α) (tolerance : α) : Bool :=
  plan.rolls.any fun rolls => Quantity.le (Quantity.sub plan.lowerBound tolerance) rolls

/-- Whether a number of whole rolls is not below the number of rolls. -/
def isAtLeastRelaxed (plan : CuttingPlan α) (whole : Int) (tolerance : α) : Bool :=
  plan.rolls.any fun rolls => Quantity.le (Quantity.sub rolls tolerance) (Quantity.ofInt whole)

/-- The patterns of the whole rolls with their usages as quantities. -/
def wholeUsages (plan : CuttingPlan α) : List (Pattern × α) :=
  plan.wholePatterns.map fun (pattern, usage) => (pattern, Quantity.ofInt usage)

end CuttingPlan

end PatternCovering
