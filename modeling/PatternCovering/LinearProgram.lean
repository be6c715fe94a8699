/-!
# Linear programs

A linear program over the rationals: minimise a linear objective over variables that stay in ranges,
while the values of rows, linear in the variables, stay in ranges of their own.
-/

namespace PatternCovering

/-- The values that a variable or a row may take; a missing bound is infinite. -/
structure Range where
  lower : Option Rat := none
  upper : Option Rat := none
  deriving Repr, DecidableEq

namespace Range

/-- Whether a value lies in the range. -/
def contains (range : Range) (value : Rat) : Bool :=
  range.lower.all (fun bound => bound ≤ value) && range.upper.all (fun bound => value ≤ bound)

/-- Whether no value lies in the range. -/
def isEmpty (range : Range) : Bool :=
  match range.lower, range.upper with
  | some low, some high => high < low
  | _, _ => false

/-- The bound that a value is beyond, the value itself if it lies in the range. -/
def nearest (range : Range) (value : Rat) : Rat :=
  match range.lower, range.upper with
  | some low, some high => if value < low then low else if high < value then high else value
  | some low, none => if value < low then low else value
  | none, some high => if high < value then high else value
  | none, none => value

/-- The only value of the range, if there is just one. -/
def single? (range : Range) : Option Rat :=
  match range.lower, range.upper with
  | some low, some high => if low = high then some low else none
  | _, _ => none

/-- A bound of the range, zero if it has none. -/
def corner (range : Range) : Rat := (range.lower <|> range.upper).getD 0

/-- How far a value may grow, if that is limited. -/
def roomAbove (range : Range) (value : Rat) : Option Rat := range.upper.map (· - value)

/-- How far a value may shrink, if that is limited. -/
def roomBelow (range : Range) (value : Rat) : Option Rat := range.lower.map (value - ·)

/-- How far a value lies outside the range. -/
def excess (range : Range) (value : Rat) : Rat := (value - range.nearest value).abs

/-- The range with either bound moved outward. -/
def widened (range : Range) (amount : Rat) : Range :=
  { lower := range.lower.map (· - amount), upper := range.upper.map (· + amount) }

/-- The range, none if it is empty. Bounds that cross by less than a given amount are taken for one
value: the one that is an integer, if any, and else their middle. -/
def reconciled? (range : Range) (amount : Rat) : Option Range :=
  match range.lower, range.upper with
  | some low, some high =>
    if low ≤ high then some range
    else if amount ≤ low - high then none
    else
      let value := if low.den = 1 then low else if high.den = 1 then high else (low + high) / 2
      some ⟨some value, some value⟩
  | _, _ => some range

/-- The range of the multiples of its values. -/
def times (range : Range) (factor : Rat) : Range :=
  let scaled : Range := ⟨range.lower.map (factor * ·), range.upper.map (factor * ·)⟩
  if factor = 0 then ⟨some 0, some 0⟩
  else if factor < 0 then ⟨scaled.upper, scaled.lower⟩ else scaled

/-- The range of the differences between its values and those of another range. -/
def minus (range other : Range) : Range :=
  { lower := do
      return (← range.lower) - (← other.upper)
    upper := do
      return (← range.upper) - (← other.lower) }

/-- The range narrowed to the multiples of a step, where a bound that a multiple misses by no more
than a part of the step counts as met. -/
def onMultiples (range : Range) (step part : Rat) : Range :=
  if step = 0 then range
  else
    { lower := range.lower.map fun bound => ((bound / step - part).ceil : Rat) * step
      upper := range.upper.map fun bound => ((bound / step + part).floor : Rat) * step }

/-- The values that lie in two ranges. -/
def meet (range other : Range) : Range :=
  { lower := match range.lower, other.lower with
      | some low, some bound => some (if low < bound then bound else low)
      | low, bound => low <|> bound
    upper := match range.upper, other.upper with
      | some high, some bound => some (if bound < high then bound else high)
      | high, bound => high <|> bound }

/-- The range of a single value. -/
def only (value : Rat) : Range := ⟨some value, some value⟩

/-- The part of the range from a bound on. -/
def atLeast (range : Range) (bound : Rat) : Range :=
  let low := range.lower.getD bound
  { range with lower := some (if low < bound then bound else low) }

/-- The part of the range up to a bound. -/
def atMost (range : Range) (bound : Rat) : Range :=
  let high := range.upper.getD bound
  { range with upper := some (if bound < high then bound else high) }

end Range

/-- The entries of a vector that are not zero, with their places. -/
def entriesOf (line : Array Rat) : List (Nat × Rat) :=
  (List.range line.size).filterMap fun place =>
    let entry := line.getD place 0
    if entry = 0 then none else some (place, entry)

/-- The sum of the products of the entries of two vectors. -/
def innerProduct (left right : Array Rat) : Rat :=
  (left.zip right).foldl (fun sum (a, b) => if a = 0 || b = 0 then sum else sum + a * b) 0

/-- A vector with multiples of the given entries added. -/
def addEntries (factor : Rat) (entries : List (Nat × Rat)) (line : Array Rat) : Array Rat :=
  entries.foldl (fun line (place, entry) => line.modify place (· + factor * entry)) line

/-- A linear objective to be minimised, the ranges of the variables, and rows with their ranges. -/
structure LinearProgram where
  objective : Array Rat
  ranges : Array Range
  rows : Array (Array Rat × Range)

namespace LinearProgram

/-- How far the row or the variable that a point misses most lies outside its range. -/
def violation (program : LinearProgram) (point : Array Rat) : Rat :=
  let ofVariables := Array.zipWith Range.excess program.ranges point
  let ofRows := program.rows.map fun (line, range) => range.excess (innerProduct line point)
  (ofVariables ++ ofRows).foldl (fun most excess => if most < excess then excess else most) 0

/-- The program with the ranges of its rows widened. -/
def widened (program : LinearProgram) (amount : Rat) : LinearProgram :=
  { program with rows := program.rows.map fun (line, range) => (line, range.widened amount) }

end LinearProgram

/-- A point with its objective and the dual of each row: the rate at which the optimal objective
grows with the bound that the row is at. -/
structure LinearSolution where
  objective : Rat
  point : Array Rat
  duals : Array Rat

/-- What is found out about a program. -/
inductive Verdict where
  | optimal (solution : LinearSolution)
  | infeasible
  | unbounded
  /-- The objective has no limit, if there is a point at all. -/
  | limitless
  /-- The allowed number of steps was not enough. -/
  | unfinished

end PatternCovering
