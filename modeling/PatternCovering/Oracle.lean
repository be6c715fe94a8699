import PatternCovering.Knapsack
import PatternCovering.PathSearch

/-!
# Pricing oracles

The one thing that column generation asks of pricing: an offer for a vector of duals. An oracle may
keep a state from one call to the next, and it reports what it did, also where it fails.
-/

namespace PatternCovering

/-- An oracle whose state is of type `σ`. -/
structure Oracle (σ α : Type) where
  numItems : Datum
  shown : String
  price : σ → List α → σ × List Event × Except Fault (Offer α)

variable {ι α : Type} [Position ι] [Quantity α]

/-- The oracle that fills a knapsack, with room for a table of at most `room` widths. -/
def Knapsack.oracle (knapsack : Knapsack α) (room : Nat := Datum.mostRepeated) : Oracle Unit α where
  numItems := .int knapsack.numItems
  shown := knapsack.shown
  price _ duals :=
    match knapsack.priceInRoom room duals with
    | .error fault => ((), [], .error fault)
    | .ok (offer, events) => ((), events, .ok offer)

/-- The oracle that searches a network, in at most `fuel` visits for each call. -/
def PathSearch.oracle (search : PathSearch ι α) (fuel : Nat) : Oracle Unit α where
  numItems := Position.report search.numItems
  shown := search.shown
  price _ duals := ((), search.price fuel duals)

end PatternCovering
