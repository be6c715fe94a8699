import PatternCovering.Knapsack
import PatternCovering.Offer.Reader

/-!
# Knapsacks from plain data

Widths must be whole and positive, the capacity whole and not negative.
-/

namespace PatternCovering.Knapsack

/-- The widths of the items from `first` on. -/
def readWidthsFrom (first : Nat) : List Datum → Except Fault (List Nat)
  | [] => .ok []
  | given :: rest => do
    match ← given.whole? with
    | none => .error (.knapsackWidth first given)
    | some width =>
      if width ≤ 0 then .error (.knapsackWidth first given)
      else return width.toNat :: (← readWidthsFrom (first + 1) rest)

/-- A knapsack of widths, a capacity and settings. -/
def make (widths : List Datum) (capacity : Datum) (settings : PricingSettings Datum) :
    Except Fault (Knapsack Datum) := do
  let checked ← readWidthsFrom 0 widths
  match ← capacity.whole? with
  | none => .error (.knapsackCapacity capacity)
  | some size =>
    if size < 0 then .error (.knapsackCapacity capacity)
    else if h : ∀ width ∈ checked, 0 < width then
      return { widths := checked, capacity := size.toNat, settings, widths_pos := h }
    else .error .wrongType

/-- A knapsack from plain data. -/
def read (given : Datum) : Except Fault (Knapsack Datum) := do
  let settings ← PricingSettings.read (given.get "config")
  make (← (given.get "widths").elements) (given.get "capacity") settings

/-- The offer for duals from plain data. -/
def priceFrom (knapsack : Knapsack Datum) (given : Datum) (room : Nat := Datum.mostRepeated) :
    Except Fault (Offer Datum × List Event) := do
  knapsack.priceInRoom room (← given.elements)

end PatternCovering.Knapsack
