import PatternCovering.CuttingStock
import PatternCovering.Generation

/-!
# Solving cutting stock

The covering problem of the items is solved by column generation with the patterns of one roll. The
relaxation gives a fractional number of rolls with the patterns used; the integer restriction to
the patterns found gives whole rolls.
-/

namespace PatternCovering

/-- Rolls and patterns for a cutting stock instance. -/
structure CuttingPlan (α : Type) where
  /-- The number of rolls of the relaxation, none if the engine had no value for it. -/
  rolls : Option α
  wholeRolls : Option Int
  patterns : List (Pattern × α)
  wholePatterns : List (Pattern × Int)
  converged : Bool
  rounds : Nat
  numColumns : Nat
  lowerBound : α

namespace CuttingPlan

variable {α : Type} [Quantity α]

/-- A summary in lines, with the given time. -/
def summary (plan : CuttingPlan α) (time : Datum) : Except Fault String := do
  let rolls ← (reportOption plan.rolls).fixed 4
  let bound ← (Quantity.report plan.lowerBound).fixed 4
  let seconds ← time.fixed 3
  let whole :=
    match plan.wholeRolls with
    | none => []
    | some count => [s!"  IP rolls: {count}"]
  return String.intercalate "\n"
    (["Cutting Stock Solution:", s!"  LP rolls: {rolls} (lower bound {bound})"] ++ whole ++
      [s!"  Converged: {(Datum.flag plan.converged).plain} after {plan.rounds} iterations",
        s!"  Columns: {plan.numColumns}", s!"  Solve time: {seconds}s"])

/-- The patterns of columns with their values. -/
def usages (columns : List (Column α)) : List (Pattern × α) :=
  columns.map fun column => (column.pattern, column.value.getD Quantity.zero)

/-- The plan that a run of column generation gives. -/
def ofOutcome (outcome : Outcome α) (lowerBound : α) : Except Fault (CuttingPlan α) := do
  let wholeRolls ←
    match outcome.integerObjective with
    | none => .ok none
    | some objective => some <$> Quantity.round? objective
  let wholePatterns ← (usages outcome.integerColumns).mapM fun (pattern, usage) => do
    return (pattern, ← Quantity.round? usage)
  return {
    rolls := outcome.objective, wholeRolls, patterns := usages outcome.columns, wholePatterns
    converged := outcome.converged, rounds := outcome.rounds
    numColumns := outcome.totalColumns, lowerBound }

end CuttingPlan

namespace CuttingStock

variable {ε α : Type} [Quantity α]

/-- The name of the problem of an instance. -/
def problemName (stock : CuttingStock) : Datum :=
  if stock.name.truthy then stock.name else .text "CuttingStock"

/-- Solves an instance in a new problem. The oracle and the settings are looked at once the covering
problem stands; a path search may take `fuel` visits for each call, and a knapsack has room for a
table of at most `room` widths. -/
def solve (stock : CuttingStock) (engine : Engine ε α) (problem : Problem ε) (method : Datum)
    (settings : Except Fault (GenerationSettings α)) (feasibility : α) (fuel : Nat)
    (room : Nat := Datum.mostRepeated) : Cover ε α × Except Fault (CuttingPlan α) :=
  match Cover.build engine problem stock.items stock.problemName true with
  | (cover, .error fault) => (cover, .error fault)
  | (cover, .ok ()) =>
    match (do
      let oracle : Oracle Unit α ← stock.oracle method PricingSettings.standard fuel room
      let generation : Generation ε Unit α :=
        { engine, oracle, settings := ← settings, feasibility }
      cover.checkOracle oracle
      return generation) with
    | .error fault => (cover, .error fault)
    | .ok generation =>
      match generation.solve cover () with
      | (progress, .error fault) => (progress.cover, .error fault)
      | (progress, .ok outcome) =>
        match (stock.lowerBound : Except Fault α) with
        | .error fault => (progress.cover, .error fault)
        | .ok bound =>
          let (told, heard) := progress.cover.tell (.stockCut (reportOption outcome.objective)
            (Quantity.report bound) progress.cover.numColumns)
          (told, do
            heard
            CuttingPlan.ofOutcome outcome bound)

end CuttingStock

end PatternCovering
