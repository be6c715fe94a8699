import PatternCovering.Binary
import PatternCovering.LinearProgram.Simplex

/-!
# Estimates in doubles

A tableau whose numbers are doubles. It is brought to its optimum by the same kind of steps as an
exact one, only much faster; but what it shows is a guess that has to be confirmed by exact
arithmetic. All comparisons leave room for a small error.

The costs of the free values have to be settled from the start, so that no free value can improve
the objective. Of the basic values outside their ranges the one that is farthest out is brought to
its nearest bound, at the least price.
-/

namespace PatternCovering

/-- Values in ranges between doubles, the basic ones as combinations of the free ones. -/
structure Estimate where
  lower : FloatArray
  upper : FloatArray
  values : FloatArray
  basic : Array Nat
  free : Array Nat
  lines : Array FloatArray
  costs : FloatArray

namespace Estimate

/-- An error that comparisons leave room for. -/
def margin : Float := 1e-9

/-- A vector of doubles. -/
def vector (entries : Array Rat) : FloatArray := ⟨entries.map floatOfRat⟩

/-- A tableau in doubles. -/
def ofTableau (tableau : Tableau) : Estimate :=
  let infinity : Float := 1.0 / 0.0
  { lower := ⟨tableau.ranges.map fun range => (range.lower.map floatOfRat).getD (-infinity)⟩
    upper := ⟨tableau.ranges.map fun range => (range.upper.map floatOfRat).getD infinity⟩
    values := vector tableau.values
    basic := tableau.basic
    free := tableau.free
    lines := tableau.lines.map vector
    costs := vector tableau.costs }

/-- The places below a size at which a vector is not zero. -/
def placesOf (source : FloatArray) : (size : Nat) → List Nat → List Nat
  | 0, places => places
  | place + 1, places =>
    placesOf source place (if source.get! place == 0.0 then places else place :: places)

/-- A multiple of a vector added to another one at some places. -/
def addMultiple (factor : Float) (source : FloatArray) : List Nat → FloatArray → FloatArray
  | [], target => target
  | place :: places, target =>
    addMultiple factor source places
      (target.set! place (target.get! place + factor * source.get! place))

/-- A vector divided by a number, up to a place. -/
def divide (divisor : Float) : (size : Nat) → FloatArray → FloatArray
  | 0, target => target
  | place + 1, target => divide divisor place (target.set! place (target.get! place / divisor))

/-- How far a value is below its range, negative if it is above it. -/
def shortage (estimate : Estimate) (number : Nat) : Float :=
  let value := estimate.values.get! number
  if value < estimate.lower.get! number - margin then estimate.lower.get! number - value
  else if estimate.upper.get! number + margin < value then estimate.upper.get! number - value
  else 0.0

/-- Of the rows up to a place, the one whose basic value is farthest outside its range, and how far
it has to move. -/
def farthest? (estimate : Estimate) : (size : Nat) → Option (Nat × Float) → Option (Nat × Float)
  | 0, best => best
  | row + 1, best =>
    let shortage := estimate.shortage (estimate.basic.getD row 0)
    estimate.farthest? row (match best with
      | none => if shortage == 0.0 then none else some (row, shortage)
      | some (_, most) => if most.abs < shortage.abs then some (row, shortage) else best)

/-- Whether a value may go up or down. -/
def canMove (estimate : Estimate) (number : Nat) (rising : Bool) : Bool :=
  let value := estimate.values.get! number
  if rising then value + margin < estimate.upper.get! number
  else estimate.lower.get! number + margin < value

/-- Of the columns up to a place, the one whose free value moves a line up or down at the least
price, the one with the greatest effect among equals. -/
def cheapest? (estimate : Estimate) (line : FloatArray) (rising : Bool) :
    (size : Nat) → Option (Nat × Float) → Option (Nat × Float)
  | 0, best => best
  | column + 1, best =>
    let entry := line.get! column
    if entry.abs > margin &&
        estimate.canMove (estimate.free.getD column 0) (rising == (entry > 0.0)) then
      let price := (estimate.costs.get! column / entry).abs
      estimate.cheapest? line rising column (match best with
        | none => some (column, price)
        | some (other, least) =>
          if price < least - margin ||
              (price < least + margin && (line.get! other).abs < entry.abs) then
            some (column, price)
          else best)
    else estimate.cheapest? line rising column best

/-- Moves the free value of a column, the basic values following it. -/
def move (estimate : Estimate) (column : Nat) (step : Float) : Estimate :=
  let number := estimate.free.getD column 0
  let moved := estimate.values.set! number (estimate.values.get! number + step)
  { estimate with
    values := (estimate.basic.zip estimate.lines).foldl (fun values (number, line) =>
      values.set! number (values.get! number + line.get! column * step)) moved }

/-- A line with another one, which is not zero at some places, put in for the free value of a
column. -/
def substitute (replacement : FloatArray) (places : List Nat) (column : Nat) (line : FloatArray) :
    FloatArray :=
  let factor := line.get! column
  if factor == 0.0 then line
  else addMultiple factor replacement places (line.set! column 0.0)

/-- Exchanges the basic value of a line with the free value of a column. -/
def exchange (estimate : Estimate) (row column : Nat) : Estimate :=
  let line := estimate.lines.getD row ⟨#[]⟩
  let pivot := line.get! column
  let replacement := divide (-pivot) line.size (line.set! column (-1.0))
  let places := placesOf replacement line.size []
  { estimate with
    basic := estimate.basic.setIfInBounds row (estimate.free.getD column 0)
    free := estimate.free.setIfInBounds column (estimate.basic.getD row 0)
    lines := estimate.lines.mapIdx fun place line =>
      if place = row then replacement else substitute replacement places column line
    costs := substitute replacement places column estimate.costs }

/-- How the basic values end up. -/
inductive Ending where
  /-- All of them are in their ranges. -/
  | settled (estimate : Estimate)
  /-- One of them cannot be brought into its range. -/
  | stuck
  /-- The allowed number of steps was not enough. -/
  | unfinished

/-- Brings all basic values into their ranges, in at most `fuel` steps. -/
def settle : (fuel : Nat) → Estimate → Ending
  | 0, _ => .unfinished
  | fuel + 1, estimate =>
    match estimate.farthest? estimate.basic.size none with
    | none => .settled estimate
    | some (row, shortage) =>
      let line := estimate.lines.getD row ⟨#[]⟩
      match estimate.cheapest? line (shortage > 0.0) estimate.free.size none with
      | none => .stuck
      | some (column, _) =>
        settle fuel ((estimate.move column (shortage / line.get! column)).exchange row column)

end Estimate

end PatternCovering
