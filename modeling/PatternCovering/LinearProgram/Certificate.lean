import PatternCovering.LinearProgram

/-!
# Confirmed solutions

Whoever knows which rows and variables of a linear program are at a bound in an optimum, and at
which one, can have the rest computed: the other variables solve one system of linear equations and
the duals of the rows that are at a bound another one. If the values lie in their ranges and the
duals have the right signs, then the point is an optimum, wherever the knowledge came from.
-/

namespace PatternCovering

namespace LinearSystem

/-- The entries of an equation that are not zero, its value among them. -/
def numEntries (equation : Array Rat) : Nat := (equation.toList.filter (· ≠ 0)).length

/-- An equation less the multiple of another one that takes an unknown out of it. -/
def reduced (unknown : Nat) (pivot equation : Array Rat) : Array Rat :=
  let factor := equation.getD unknown 0 / pivot.getD unknown 1
  if factor = 0 then equation
  else equation.mapIdx fun place entry =>
    let other := pivot.getD place 0
    if other = 0 then entry else entry - factor * other

/-- Of the equations with an unknown the one with the fewest entries. -/
def shortest? (unknown : Nat) (equations : List (Array Rat)) : Option (Array Rat) :=
  (equations.filter (·.getD unknown 0 ≠ 0)).foldl (fun best equation =>
    match best with
    | none => some equation
    | some known => if numEntries equation < numEntries known then some equation else best) none

/-- The values of the unknowns up to one, none if there is no single solution. Each equation has the
coefficients of all unknowns and then its value; the other unknowns have been taken out. -/
def solve? (size : Nat) : (unknowns : Nat) → List (Array Rat) → Option (Array Rat)
  | 0, equations =>
    if equations.all (·.getD size 0 = 0) then some #[] else none
  | unknown + 1, equations => do
    let pivot ← shortest? unknown equations
    let others := (equations.erase pivot).map (reduced unknown pivot)
    let known ← solve? size unknown others
    let rest := innerProduct (pivot.extract 0 unknown) known
    return known.push ((pivot.getD size 0 - rest) / pivot.getD unknown 1)

end LinearSystem

/-- For every variable and then every row of a program the bound that it is at, none if it lies
between its bounds. -/
abbrev Standing := Array (Option Rat)

namespace LinearProgram

/-- The numbers of the variables that lie between their bounds. -/
def looseVariables (program : LinearProgram) (standing : Standing) : List Nat :=
  (List.range program.ranges.size).filter fun number => (standing.getD number none).isNone

/-- The rows that are at a bound, with their numbers and their bounds. -/
def boundRows (program : LinearProgram) (standing : Standing) : List (Nat × Array Rat × Rat) :=
  (List.range program.rows.size).filterMap fun number => do
    let bound ← standing.getD (program.ranges.size + number) none
    return (number, (program.rows.getD number (#[], {})).1, bound)

/-- The point at which variables and rows stand as given, if there is only one. -/
def pointAt? (program : LinearProgram) (standing : Standing) : Option (Array Rat) := do
  let loose := program.looseVariables standing
  let fixed := (Array.range program.ranges.size).map fun number =>
    (standing.getD number none).getD 0
  let equations := (program.boundRows standing).map fun (_, line, bound) =>
    ((loose.map (line.getD · 0)) ++ [bound - innerProduct line fixed]).toArray
  let values ← LinearSystem.solve? loose.length loose.length equations
  return (loose.zip values.toList).foldl (fun point (number, value) =>
    point.setIfInBounds number value) fixed

/-- The duals of all rows, zero for those between their bounds, at which the variables between
theirs cost nothing more, if there is only one choice of them. -/
def dualsAt? (program : LinearProgram) (standing : Standing) : Option (Array Rat) := do
  let bound := program.boundRows standing
  let lines := bound.map (·.2.1)
  let equations := (program.looseVariables standing).map fun number =>
    ((lines.map (·.getD number 0)) ++ [program.objective.getD number 0]).toArray
  let values ← LinearSystem.solve? bound.length bound.length equations
  return (bound.zip values.toList).foldl (fun duals ((number, _, _), value) =>
    duals.setIfInBounds number value) (Array.replicate program.rows.size 0)

/-- Whether a rate has the right sign for a value at a bound of its range: the objective must not
improve where the value can still move. -/
def isSettledAt (range : Range) (value rate : Rat) : Bool :=
  (rate ≤ 0 || range.lower = some value) && (0 ≤ rate || range.upper = some value)

/-- Whether a point lies in all ranges and duals show that it is an optimum. -/
def confirms (program : LinearProgram) (point duals : Array Rat) : Bool :=
  let costs := (program.rows.zip duals).foldl (fun costs ((line, _), dual) =>
    if dual = 0 then costs else addEntries (-dual) (entriesOf line) costs) program.objective
  let isRight (range : Range) (value rate : Rat) : Bool :=
    range.contains value && isSettledAt range value rate
  ((program.ranges.zip point).zip costs).all (fun ((range, value), cost) =>
      isRight range value cost) &&
    (program.rows.zip duals).all fun ((line, range), dual) =>
      isRight range (innerProduct line point) dual

/-- The solution in which variables and rows stand as given, if it is an optimum. -/
def confirmed? (program : LinearProgram) (standing : Standing) : Option LinearSolution := do
  let point ← program.pointAt? standing
  let duals ← program.dualsAt? standing
  if program.confirms point duals then
    return { objective := innerProduct program.objective point, point, duals }
  else none

end LinearProgram

end PatternCovering
