import PatternCovering.LinearProgram.Simplex

/-!
# Cuts

In a settled tableau, let a basic value have to be an integer without being one. The free values
stand at bounds of their ranges, so that they can move only one way, and those that have to be
integers move by whole units. A cut is a row that asks the free values to move far enough for the
basic value to come to an integer: every integer point in the ranges satisfies it, the settled
values do not.
-/

namespace PatternCovering.Tableau

/-- The distance of a value from the integer below it. -/
def fraction (value : Rat) : Rat := value - value.floor

/-- What a unit of a free value counts towards a cut if it lowers a basic value by a rate, when that
value is above an integer by the given distance. A move by whole units that lowers the basic value
to the integer counts by what it lowers, and one that raises it to the next integer in
proportion. -/
def weight (isWhole : Bool) (distance rate : Rat) : Rat :=
  let ratio := distance / (1 - distance)
  if isWhole then
    let lowered := fraction rate
    if lowered ≤ distance then lowered else ratio * (1 - lowered)
  else if 0 ≤ rate then rate else ratio * -rate

/-- The coefficient of a free value in a cut, none if there is no cut because the value can move
either way. The value has the given coefficient in the line of the basic value. -/
def cutEntry? (tableau : Tableau) (isWhole : Nat → Bool) (distance : Rat) (number : Nat)
    (entry : Rat) : Option Rat :=
  let range := tableau.rangeOf number
  let value := tableau.valueOf number
  let whole := isWhole number && value.den = 1
  if entry = 0 || range.single?.isSome || (whole && entry.den = 1) then some 0
  else if range.lower = some value then some (weight whole distance (-entry))
  else if range.upper = some value then some (-(weight whole distance entry))
  else none

/-- The tableau with a new basic value in a range for a line. -/
def addLine (tableau : Tableau) (line : Array Rat) (value : Rat) (range : Range) : Tableau :=
  { tableau with
    ranges := tableau.ranges.push range
    values := tableau.values.push value
    basic := tableau.basic.push tableau.ranges.size
    lines := tableau.lines.push line }

/-- The coefficients of the free values in a cut for a basic value, and how far they have to move,
if there is a cut. -/
def cut? (tableau : Tableau) (isWhole : Nat → Bool) (number : Nat) :
    Option (Array Rat × Rat) := do
  let row ← tableau.basic.findIdx? (· == number)
  let line := tableau.lines.getD row #[]
  let distance := fraction (tableau.valueOf number)
  let entries ← (List.range tableau.free.size).mapM fun column =>
    tableau.cutEntry? isWhole distance (tableau.free.getD column 0) (coefficient line column)
  return (entries.toArray, distance)

/-- The tableau with a new basic value for a line, which has to grow by an amount. -/
def addCut (tableau : Tableau) (line : Array Rat) (amount : Rat) : Tableau :=
  let value := innerProduct line (tableau.free.map tableau.valueOf)
  tableau.addLine line value { lower := some (value + amount) }

/-- The tableau with a cut for a basic value, if there is one. -/
def withCut (tableau : Tableau) (isWhole : Nat → Bool) (number : Nat) : Tableau :=
  match tableau.cut? isWhole number with
  | some (line, amount) => tableau.addCut line amount
  | none => tableau

end PatternCovering.Tableau
