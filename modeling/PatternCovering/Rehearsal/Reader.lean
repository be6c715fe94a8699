import PatternCovering.Offer.Reader
import PatternCovering.Rehearsal

/-!
# Scripted oracles from plain data
-/

namespace PatternCovering.Rehearsal

/-- A scripted oracle from plain data. -/
def read (given : Datum) : Except Fault (Rehearsal Datum Datum) := do
  let settings ← PricingSettings.read (given.get "config")
  let numItems := given.get "num_items"
  if ← numItems.lt (.int 0) then .error (.numItemsNegative numItems)
  else
    let columns ←
      match given.presentField? "patterns" with
      | none => .ok none
      | some patterns => do
        pure (some ((← patterns.elements).map Column.read))
    let reducedCosts ← given.elementsField "reduced_costs"
    return { numItems, columns, settings
             reducedCosts := reducedCosts.map fun cost => Datum.present? (some cost) }

end PatternCovering.Rehearsal
