import PatternCovering.LinearProgram.Cut

/-!
# Rounded rows

A row that asks for no more than a limit is divided by a step and rounded. Every variable is counted
from a bound of its range, so that it is not negative; the whole parts of the coefficients of
integers and of the limit are kept, and what the coefficients are in excess of the limit counts in
proportion. All integer points that satisfy the row satisfy the rounded one, while a point between
them need not.
-/

namespace PatternCovering

/-- A term of a row whose variable is counted from one of its bounds. -/
structure Term where
  number : Nat
  isInteger : Bool
  /-- The bound from which the variable is counted. -/
  origin : Rat
  /-- Whether the variable is counted downwards. -/
  isDown : Bool
  /-- The coefficient of what is counted. -/
  coefficient : Rat
  /-- What is counted at the values at hand. -/
  count : Rat

/-- A combination of variables that is not to exceed a limit. -/
structure Halfspace where
  entries : List (Nat × Rat)
  limit : Rat

namespace Term

/-- The term of a variable, counted from the bound that it is nearer to, none if there is no bound.
-/
def of? (tableau : Tableau) (isInteger : Bool) (number : Nat) (coefficient : Rat) : Option Term :=
  let value := tableau.valueOf number
  let up (low : Rat) : Term := ⟨number, isInteger, low, false, coefficient, value - low⟩
  let down (high : Rat) : Term := ⟨number, isInteger, high, true, -coefficient, high - value⟩
  match (tableau.rangeOf number).lower, (tableau.rangeOf number).upper with
  | none, none => none
  | some low, none => some (up low)
  | none, some high => some (down high)
  | some low, some high => some (if high - value < value - low then down high else up low)

/-- What the row has at the bound from which the variable is counted. -/
def offset (term : Term) : Rat :=
  (if term.isDown then -term.coefficient else term.coefficient) * term.origin

/-- The coefficient that is left when the row is divided by a step and rounded, where the limit
exceeds an integer by a given part. -/
def rounded (step excess : Rat) (term : Term) : Rat :=
  let ratio := term.coefficient / step
  if term.isInteger then
    let beyond := Tableau.fraction ratio - excess
    ratio.floor + (if 0 < beyond then beyond / (1 - excess) else 0)
  else if ratio < 0 then ratio / (1 - excess) else 0

/-- The term with another coefficient. -/
def withCoefficient (term : Term) (coefficient : Rat) : Term := { term with coefficient }

end Term

/-- A row by its terms, with the limit for what is counted. -/
structure CountedRow where
  terms : List Term
  limit : Rat

namespace CountedRow

/-- The row for the values of a tableau, none if a variable has no bound to count from. -/
def of? (tableau : Tableau) (isInteger : Nat → Bool) (halfspace : Halfspace) :
    Option CountedRow := do
  let terms ← halfspace.entries.mapM fun (number, coefficient) =>
    Term.of? tableau (isInteger number) number coefficient
  return ⟨terms, terms.foldl (fun limit term => limit - term.offset) halfspace.limit⟩

/-- The row in terms of the variables themselves. -/
def halfspace (row : CountedRow) : Halfspace :=
  { entries := row.terms.filterMap fun term =>
      if term.coefficient = 0 then none
      else some (term.number, if term.isDown then -term.coefficient else term.coefficient)
    limit := row.terms.foldl (fun limit term => limit + term.offset) row.limit }

/-- The row divided by a step and rounded, none if there is nothing to round. -/
def rounded? (row : CountedRow) (step : Rat) : Option CountedRow :=
  let limit := row.limit / step
  let excess := Tableau.fraction limit
  if excess = 0 then none
  else
    some {
      terms := row.terms.map fun term => term.withCoefficient (term.rounded step excess)
      limit := limit.floor }

/-- By how much the values at hand exceed the limit. -/
def violation (row : CountedRow) : Rat :=
  row.terms.foldl (fun sum term => sum + term.coefficient * term.count) (-row.limit)

/-- How deep the values at hand are cut off: the square of their distance from the halfspace, zero
if they lie in it. -/
def depth (row : CountedRow) : Rat :=
  let violation := row.violation
  let size := row.terms.foldl (fun sum term => sum + term.coefficient * term.coefficient) 0
  if violation ≤ 0 || size = 0 then 0 else violation * violation / size

/-- The steps that are tried: the sizes of the coefficients of integers that are not at a bound. -/
def steps (row : CountedRow) : List Rat :=
  (row.terms.filterMap fun term =>
    if term.isInteger && term.count ≠ 0 then some term.coefficient.abs else none).eraseDups

/-- The rounded row that cuts off the values at hand most deeply, if any does. -/
def deepest? (row : CountedRow) : Option CountedRow :=
  (row.steps.filterMap row.rounded?).foldl (fun best rounded =>
    if (best.map depth).getD 0 < rounded.depth then some rounded else best) none

end CountedRow

namespace Tableau

/-- The line of a combination of values. -/
def lineOf (tableau : Tableau) (entries : List (Nat × Rat)) : Array Rat :=
  entries.foldl (fun line (number, factor) =>
    match tableau.free.findIdx? (· == number), tableau.basic.findIdx? (· == number) with
    | some column, _ => line.modify column (· + factor)
    | none, some row => addEntries factor (entriesOf (tableau.lines.getD row #[])) line
    | none, none => line) (Array.replicate tableau.free.size 0)

/-- The tableau with a halfspace as a further row. -/
def addHalfspace (tableau : Tableau) (halfspace : Halfspace) : Tableau :=
  tableau.addLine (tableau.lineOf halfspace.entries)
    (halfspace.entries.foldl (fun sum (number, factor) =>
      sum + factor * tableau.valueOf number) 0) { upper := some halfspace.limit }

/-- The tableau without the basic values from a number on that are below their limits. -/
def withoutIdle (tableau : Tableau) (start : Nat) : Tableau :=
  let kept := (tableau.basic.zip tableau.lines).filter fun (number, _) =>
    number < start || (tableau.rangeOf number).upper.all (· ≤ tableau.valueOf number)
  { tableau with basic := kept.map (·.1), lines := kept.map (·.2) }

end Tableau

end PatternCovering
