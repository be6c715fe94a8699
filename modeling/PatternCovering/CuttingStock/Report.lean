import PatternCovering.Cover.Report
import PatternCovering.CuttingStock.Solution
import PatternCovering.Network.Report

/-!
# Reports of cutting stock
-/

namespace PatternCovering

/-- What is reported of an instance. A bound or a network that cannot be had is a fault in its own
place. -/
def CuttingStock.fields (stock : CuttingStock) : List (String × Report) :=
  let network : Except Fault Report := do
    let network : Network Datum Datum ← stock.network
    network.report
  let bound : Except Fault Datum := stock.lowerBound
  [("widths", .of stock.widths), ("demands", .of stock.demands),
    ("capacity", .of stock.capacity), ("names", .of (stock.items.map (·.name))),
    ("name", .of stock.name), ("num_items", .of stock.numItems),
    ("total_demand", .of stock.totalDemand), ("lower_bound", .of bound),
    ("items", .of stock.items), ("network", .of network)]

/-- The report of a plan, given the time it took. -/
def CuttingPlan.report (plan : CuttingPlan Datum) (time : Datum) : Except Fault Report := do
  return .object [("num_rolls", .of plan.rolls), ("num_rolls_ip", .of plan.wholeRolls),
    ("patterns", .of plan.patterns), ("ip_patterns", .of plan.wholePatterns),
    ("converged", .of plan.converged), ("iterations", .of plan.rounds),
    ("num_columns", .of plan.numColumns), ("lower_bound", .of plan.lowerBound),
    ("summary", .of (← plan.summary time))]

end PatternCovering
