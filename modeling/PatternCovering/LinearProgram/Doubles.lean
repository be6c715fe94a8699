import PatternCovering.Binary
import PatternCovering.LinearProgram

/-!
# Points in doubles

The values of a point are reported as doubles. A variable at a bound has the double of that bound.
The others solve the equations of the rows that are at a bound, and their doubles are those that
elimination in doubles comes to: the unknowns are taken one after the other, each by the equation in
which its coefficient is largest. They may differ from the nearest doubles in the last place.
-/

namespace PatternCovering

namespace DoubleSystem

/-- An equation between doubles: the coefficients of the unknowns and then the value. -/
abbrev Equation := Array Float

/-- The place of the equation in which an unknown has the largest coefficient, the first one among
equals, none if it is in no equation. -/
def pivot? (unknown : Nat) (equations : List Equation) : Option Nat :=
  ((equations.zipIdx.foldl (fun best (equation, place) =>
    let size := (equation.getD unknown 0.0).abs
    match best with
    | none => if size > 0.0 then some (place, size) else none
    | some (_, most) => if most < size then some (place, size) else best)
    (none : Option (Nat × Float)))).map (·.1)

/-- An equation with an unknown taken out by another one. -/
def reduced (unknown : Nat) (pivot equation : Equation) : Equation :=
  let factor := equation.getD unknown 0.0 / pivot.getD unknown 1.0
  if factor == 0.0 then equation
  else equation.mapIdx fun place entry =>
    if place ≤ unknown then entry else entry - factor * pivot.getD place 0.0

/-- The values of `count` unknowns from the given one on, none if the equations do not give them. -/
def solve? (size : Nat) : (count unknown : Nat) → List Equation → Option (List Float)
  | 0, _, _ => some []
  | count + 1, unknown, equations => do
    let place ← pivot? unknown equations
    let pivot := equations.getD place #[]
    let known ← solve? size count (unknown + 1)
      ((equations.eraseIdx place).map (reduced unknown pivot))
    let rest := known.zipIdx.foldl (fun rest (value, index) =>
      rest - pivot.getD (unknown + 1 + index) 0.0 * value) (pivot.getD size 0.0)
    return rest / pivot.getD unknown 1.0 :: known

end DoubleSystem

/-- Whether a value is a bound of a range. -/
def Range.isBound (range : Range) (value : Rat) : Bool :=
  range.lower = some value || range.upper = some value

namespace LinearProgram

/-- The equations of the rows that are at a bound for the variables that are at none. -/
def equationsAt (program : LinearProgram) (point : Array Rat) (loose : List Nat) :
    List DoubleSystem.Equation :=
  program.rows.toList.filterMap fun (line, range) =>
    let value := innerProduct line point
    if range.isBound value then
      let rest := (entriesOf line).foldl (fun rest (number, entry) =>
        if loose.contains number then rest
        else rest - floatOfRat entry * floatOfRat (point.getD number 0)) (floatOfRat value)
      some ((loose.map fun number => floatOfRat (line.getD number 0)) ++ [rest]).toArray
    else none

/-- Whether a double stands for a value up to errors of rounding. -/
def standsFor (double : Float) (value : Rat) : Bool :=
  let nearest := floatOfRat value
  (double - nearest).abs ≤ 1e-9 * (1.0 + nearest.abs)

/-- The doubles of a point of a program. -/
def doublesOf (program : LinearProgram) (point : Array Rat) : Array Float :=
  let nearest := point.map floatOfRat
  let loose := (List.range point.size).filter fun number =>
    !(program.ranges.getD number {}).isBound (point.getD number 0)
  match DoubleSystem.solve? loose.length loose.length 0 (program.equationsAt point loose) with
  | none => nearest
  | some values =>
    (loose.zip values).foldl (fun doubles (number, value) =>
      if standsFor value (point.getD number 0) && point.getD number 0 ≠ 0 then
        doubles.setIfInBounds number value
      else doubles) nearest

end LinearProgram

end PatternCovering
