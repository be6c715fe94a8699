import PatternCovering.Column.Reader
import PatternCovering.Datum.Field
import PatternCovering.Offer

/-!
# Offers and pricing settings from plain data

Settings are given by name; what is not given keeps its standard value, and no other names are
known.
-/

namespace PatternCovering

/-- Settings from plain data; nothing means the standard ones. -/
def PricingSettings.read (given : Datum) : Except Fault (PricingSettings Datum) := do
  match given with
  | .null => return standard
  | _ =>
    given.requireKnown ["unit_cost", "max_labels", "use_dominance"]
    return { unitCost := given.getOr "unit_cost" Quantity.one
             maxLabels := given.getOr "max_labels" (.int 0)
             useDominance := given.flagField "use_dominance" true }

/-- An offer from plain data with its counts; counts that are not given are zero. -/
def Offer.read (given : Datum) : Except Fault (Offer Datum × Effort) := do
  let column ← Column.read (given.get "column")
  let status ← given.namedField "status" OfferStatus.ofName? .optimal
  let count (name : String) : Datum := given.getOr name (.int 0)
  return ({ column, status, reducedCost := given.get "reduced_cost" },
    ⟨count "num_labels_created", count "num_labels_dominated", count "nodes_processed"⟩)

end PatternCovering
