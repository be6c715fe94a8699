import PatternCovering.Column
import PatternCovering.Journal

/-!
# Pricing offers

A pricing oracle answers a vector of duals with the best column it knows and its reduced cost. An
offer of the empty column at its own cost means that nothing improves; that is an answer, not a
failure.
-/

namespace PatternCovering

/-- How an oracle came to its offer. -/
inductive OfferStatus where
  | optimal
  | iterationLimit
  | infeasible
  deriving Repr, DecidableEq

namespace OfferStatus

/-- The name by which the way to an offer is reported. -/
def name : OfferStatus → String
  | optimal => "OPTIMAL"
  | iterationLimit => "ITERATION_LIMIT"
  | infeasible => "INFEASIBLE"

/-- The way to an offer with the given name. -/
def ofName? (name : String) : Option OfferStatus :=
  [optimal, iterationLimit, infeasible].find? (·.name == name)

end OfferStatus

/-- The best column an oracle found, with the labels it created, found dominated and visited nodes
for. -/
structure Offer (α : Type) where
  column : Column α
  reducedCost : α
  status : OfferStatus := .optimal
  numCreated : Nat := 0
  numDominated : Nat := 0
  numVisits : Nat := 0

/-- The counts of an offer as plain data. -/
structure Effort where
  created : Datum := .int 0
  dominated : Datum := .int 0
  visits : Datum := .int 0

namespace Offer

variable {α : Type} [Quantity α]

/-- An offer of a column at its reduced cost, which the column then carries. -/
def ofColumn (column : Column α) (reducedCost : α) (status : OfferStatus) : Offer α :=
  { column := { column with reducedCost := some reducedCost }, reducedCost, status }

/-- The offer that says that nothing improves: the empty column at its own cost. -/
def nothing (numItems : Nat) (unitCost : α) (status : OfferStatus) : Offer α :=
  ofColumn (Column.empty numItems unitCost) unitCost status

/-- The value of the offered pattern under the duals: the cost less the reduced cost. -/
def value (offer : Offer α) : Except Fault α := Quantity.sub? offer.column.cost offer.reducedCost

/-- Whether the reduced cost is below zero by more than a tolerance. -/
def isImproving (offer : Offer α) (tolerance : α) : Except Fault Bool := do
  Quantity.lt? offer.reducedCost (← Quantity.neg? tolerance)

/-- The counts of an offer. -/
def effort (offer : Offer α) : Effort :=
  ⟨.int offer.numCreated, .int offer.numDominated, .int offer.numVisits⟩

/-- A summary in lines, with the given counts and the given time. -/
def summary (offer : Offer α) (effort : Effort) (time : Datum) : Except Fault String := do
  let reduced ← (Quantity.report offer.reducedCost).fixed 6
  let seconds ← time.fixed 3
  let labels :=
    if effort.created.truthy then
      [s!"  Labels created: {effort.created.plain}",
        s!"  Labels dominated: {effort.dominated.plain}"]
    else []
  let lines :=
    ["PricingSolution:", s!"  Status: {offer.status.name}",
      s!"  Pattern: {offer.column.pattern.shown}", s!"  Reduced cost: {reduced}"] ++
      labels ++ [s!"  Solve time: {seconds}s"]
  return String.intercalate "\n" lines

/-- The offer as it is shown. -/
def shown (offer : Offer α) : Except Fault String := do
  let reduced ← (Quantity.report offer.reducedCost).fixed 4
  return s!"PricingSolution({offer.status.name}, {offer.column.pattern.shown}, rc={reduced})"

end Offer

/-- What every oracle can be told: the cost of a pattern before the costs of arcs, the most labels a
search may create (zero for no limit), and whether a search drops dominated labels. -/
structure PricingSettings (α : Type) where
  unitCost : α
  maxLabels : α
  useDominance : Bool := true

/-- The settings where nothing is said: a pattern costs one, and there is no limit. -/
def PricingSettings.standard {α : Type} [Quantity α] : PricingSettings α :=
  { unitCost := Quantity.one, maxLabels := Quantity.ofInt 0 }

/-- The duals as real numbers; there must be one for each item. -/
def readDuals {ι α : Type} [Position ι] [Quantity α] (numItems : ι) (duals : List α) :
    Except Fault (List α) :=
  if Position.eq (Position.ofNat duals.length) numItems then duals.mapM Quantity.real?
  else .error (.dualsNotForOracle duals.length (Position.report numItems))

end PatternCovering
