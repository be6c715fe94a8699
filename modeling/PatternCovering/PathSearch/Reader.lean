import PatternCovering.CuttingStock
import PatternCovering.Network.Reader
import PatternCovering.Offer.Reader

/-!
# Path searches from plain data

The network of a search is given as such, by a cutting stock instance, or by bare nodes without
arcs.
-/

namespace PatternCovering.PathSearch

/-- The network of a search. -/
def readNetwork (given : Datum) : Except Fault (Network Datum Datum) := do
  match given.field? "network", given.field? "instance" with
  | some data, _ => Network.read data
  | none, some data => (← CuttingStock.read data).network
  | none, none => Network.ofParts (← given.elementsField "bare")

/-- A path search from plain data. -/
def read (given : Datum) : Except Fault (PathSearch Datum Datum) := do
  let network ← readNetwork given
  let settings ← PricingSettings.read (given.get "config")
  make network (given.presentField? "num_items") settings

end PatternCovering.PathSearch
