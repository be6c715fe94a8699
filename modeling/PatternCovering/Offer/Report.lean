import PatternCovering.Column.Report
import PatternCovering.Offer

/-!
# Reports of offers

An offer is reported with whether it improves, at the usual tolerance and at others.
-/

namespace PatternCovering

instance : Reportable OfferStatus := ⟨fun status => .of status.name⟩

namespace Offer

/-- The tolerance at which an offer is usually said to improve. -/
def usualTolerance : Datum := Quantity.ofDecimal 1 6

/-- What is reported of an offer with the given counts, further tolerances and the time it took. -/
def fieldsWith (offer : Offer Datum) (effort : Effort) (tolerances : List Datum) (time : Datum) :
    Except Fault (List (String × Report)) := do
  return [("column", .of offer.column), ("pattern", .of offer.column.pattern),
    ("reduced_cost", .of offer.reducedCost), ("value", .of (← offer.value)),
    ("status", .of offer.status), ("created", .of effort.created),
    ("dominated", .of effort.dominated), ("nodes", .of effort.visits),
    ("improving", .of (← offer.isImproving usualTolerance)),
    ("improving_at", .of (← tolerances.mapM offer.isImproving)), ("repr", .of (← offer.shown)),
    ("summary", .of (← offer.summary effort time))]

/-- What is reported of an offer that took no time. -/
def fields (offer : Offer Datum) (tolerances : List Datum) :
    Except Fault (List (String × Report)) :=
  offer.fieldsWith offer.effort tolerances Datum.realZero

end Offer

end PatternCovering
