import PatternCovering.LinearProgram.Lattice
import PatternCovering.LinearProgram.Rounding
import PatternCovering.LinearProgram.Scout

/-!
# Integer programs

Some variables of a linear program may have to be integers. The relaxation without this demand is
solved; if a variable that has to be an integer is not, the two parts of its range below and above
its value are looked at, each starting from the tableau at hand. Of several such variables the one
that is farthest from an integer is taken. The part whose relaxation promises most is divided next,
of several such parts the latest one.

A part is passed over when its relaxation cannot be better than the best integer point found so far,
or when some row cannot come to a value in its range with integers. If all variables in the
objective have to be integers, the objective is a multiple of its granularity, and the bound of a
part is rounded up to such a multiple. A variable whose cost alone would use up what there is to be
gained is kept from moving that far.

Ranges without limits have infinitely many parts. A search among them would not end where equations
contradict each other in integers alone, so these are looked at first; and a part that comes from
many divisions gets a cut with each further one.
-/

namespace PatternCovering

/-- A linear program with the variables that have to be integers. -/
structure IntegerProgram where
  relaxed : LinearProgram
  isInteger : Array Bool

namespace IntegerProgram

/-- The greatest rational of which all the given ones are multiples. -/
def commonMeasure (amounts : List Rat) : Rat :=
  let den := amounts.foldl (fun known amount => Nat.lcm known amount.den) 1
  let num := amounts.foldl (fun known amount =>
    Nat.gcd known (amount.num.natAbs * (den / amount.den))) 0
  mkRat num den

/-- The step in which the objective can change between integer points, zero if there is none. -/
def granularity (program : IntegerProgram) : Rat :=
  let terms := program.relaxed.objective.zip program.isInteger
  if terms.all fun (cost, isInteger) => isInteger || cost = 0 then
    commonMeasure program.relaxed.objective.toList
  else 0

/-- The least multiple of a step that is not below an amount, the amount itself for no step. -/
def roundedUp (step amount : Rat) : Rat :=
  if step = 0 then amount else ((amount / step).ceil : Rat) * step

/-- Whether a variable has to be an integer. -/
def requiresInteger (program : IntegerProgram) (number : Nat) : Bool :=
  program.isInteger.getD number false

/-- The distance of a value from the nearest integer. -/
def distance (value : Rat) : Rat :=
  let below := value - value.floor
  let above := value.ceil - value
  if below < above then below else above

/-- The variable that has to be an integer and is farthest from one, if there is any. -/
def fractional? (program : IntegerProgram) (point : Array Rat) : Option (Nat × Rat) :=
  (List.range point.size).foldl (fun best number =>
    let value := point.getD number 0
    if program.requiresInteger number && value.den ≠ 1 &&
        best.all (fun (_, other) => distance other < distance value) then some (number, value)
    else best) none

/-- The numbers of the variables in a row. -/
def usedIn (line : Array Rat) : List Nat :=
  (List.range line.size).filter fun number => line.getD number 0 ≠ 0

/-- Whether a variable has to be an integer and has more than one value. -/
def isLoose (program : IntegerProgram) (ranges : Array Range) (number : Nat) : Bool :=
  program.requiresInteger number && (ranges.getD number {}).single?.isNone

/-- The numbers of the loose variables in a row. -/
def looseIn (program : IntegerProgram) (ranges : Array Range) (line : Array Rat) : List Nat :=
  (usedIn line).filter (program.isLoose ranges)

/-- What is left of the range of a row when the variables that are not loose are taken off. -/
def restOf (program : IntegerProgram) (ranges : Array Range) (line : Array Rat) (range : Range) :
    Range :=
  ((usedIn line).filter (!program.isLoose ranges ·)).foldl (fun rest number =>
    rest.minus ((ranges.getD number {}).times (line.getD number 0))) range

/-- Whether a row can come to a value in its range. When the variables that need not be integers or
have a single value are taken off, the rest has to be a multiple of what is common to the
coefficients of the others. -/
def isAttainable (program : IntegerProgram) (ranges : Array Range) (line : Array Rat)
    (range : Range) : Bool :=
  let step := commonMeasure ((program.looseIn ranges line).map (line.getD · 0))
  let rest := program.restOf ranges line range
  if step = 0 then rest.contains 0
  else
    match rest.lower, rest.upper with
    | some low, some high => roundedUp step low ≤ high
    | _, _ => true

/-- A linear combination of the variables with the value that it has to have. -/
structure Equation where
  line : Array Rat
  value : Rat

namespace Equation

/-- The coefficient of a variable. -/
def entry (equation : Equation) (number : Nat) : Rat := equation.line.getD number 0

/-- An equation less a multiple of another one. -/
def subtract (equation : Equation) (factor : Rat) (other : Equation) : Equation :=
  { line := Array.zipWith (fun entry part => entry - factor * part) equation.line other.line
    value := equation.value - factor * other.value }

/-- Takes a variable out of equations by means of one in which it occurs, if there is one; nothing
is left of that one. -/
def eliminate (equations : List Equation) (number : Nat) : List Equation :=
  match equations.find? (·.entry number ≠ 0) with
  | none => equations
  | some pivot =>
    equations.map fun equation =>
      equation.subtract (equation.entry number / pivot.entry number) pivot

/-- An equation in integers with integer coefficients that have no common divisor, and its value,
none if that is no integer. -/
def primitive? (equation : Equation) : Option (Array Int × Int) :=
  let step := commonMeasure equation.line.toList
  let value := equation.value / step
  if step = 0 then if equation.value = 0 then some (#[], 0) else none
  else if value.den = 1 then
    some (equation.line.map fun entry => (entry / step).floor, value.floor)
  else none

end Equation

/-- The rows with a single value as equations in the variables with more than one value. -/
def equations (program : IntegerProgram) : List Equation :=
  let fixed (number : Nat) : Option Rat := (program.relaxed.ranges.getD number {}).single?
  program.relaxed.rows.toList.filterMap fun (line, range) =>
    range.single?.map fun value =>
      { line := line.mapIdx fun number entry => if (fixed number).isSome then 0 else entry
        value := (usedIn line).foldl (fun rest number =>
          rest - line.getD number 0 * (fixed number).getD 0) value }

/-- Whether the equations among the rows have a solution in which the integers are integers. -/
def isSolvable (program : IntegerProgram) : Bool :=
  let numbers := List.range program.relaxed.ranges.size
  let reduced := (numbers.filter (!program.requiresInteger ·)).foldl Equation.eliminate
    program.equations
  match reduced.mapM Equation.primitive? with
  | none => false
  | some primitive =>
    Lattice.isSolvable (primitive.map (·.2))
      (numbers.map fun number => primitive.map fun (line, _) => line.getD number 0)

/-- The program with the ranges of integers, and of rows of integers alone, narrowed to the values
that these can have, or miss by no more than a part of a step. -/
def tightened (program : IntegerProgram) (tolerance : Rat) : IntegerProgram :=
  let relaxed := program.relaxed
  let narrowed (line : Array Rat) (range : Range) : Range :=
    if (usedIn line).all program.requiresInteger then
      range.onMultiples (commonMeasure line.toList) tolerance
    else range
  { program with
    relaxed := { relaxed with
      ranges := relaxed.ranges.mapIdx fun number range =>
        if program.requiresInteger number then range.onMultiples 1 tolerance else range
      rows := relaxed.rows.map fun (line, range) => (line, narrowed line range) } }

/-- Whether every row of a tableau can come to a value in its range. -/
def isPossible (program : IntegerProgram) (tableau : Tableau) : Bool :=
  program.relaxed.rows.all fun (line, range) => program.isAttainable tableau.ranges line range

/-- Keeps a free value that has to be an integer from moving so far that its cost alone exceeds what
there is to be gained. -/
def cap (program : IntegerProgram) (gain : Rat) (tableau : Tableau) (column : Nat) : Tableau :=
  let number := tableau.free.getD column 0
  let cost := Tableau.coefficient tableau.costs column
  let range := tableau.rangeOf number
  let value := tableau.valueOf number
  if program.requiresInteger number && cost ≠ 0 then
    let farthest := value + gain / cost
    tableau.narrow number
      (if 0 < cost then range.atMost farthest.floor else range.atLeast farthest.ceil)
  else tableau

/-- Keeps all free values from moving too far for a point that is better than the best one. -/
def capAll (program : IntegerProgram) (step objective : Rat) (best : Option LinearSolution)
    (tableau : Tableau) : Tableau :=
  match best with
  | none => tableau
  | some known =>
    (List.range tableau.free.size).foldl (program.cap (known.objective - step - objective)) tableau

/-- Whether the value of a variable or a row is an integer wherever the variables are what they have
to be. -/
def isWhole (program : IntegerProgram) (number : Nat) : Bool :=
  match program.relaxed.rows[number - program.relaxed.ranges.size]? with
  | some (line, _) =>
    if number < program.relaxed.ranges.size then program.requiresInteger number
    else (usedIn line).all fun used => program.requiresInteger used && (line.getD used 0).den = 1
  | none => program.requiresInteger number

/-- A part of the ranges whose relaxation is solved by no integer point. -/
structure Part where
  tableau : Tableau
  /-- The objective of the relaxation. -/
  objective : Rat
  /-- The variable by which the part is to be divided. -/
  number : Nat
  /-- The number of divisions that the part comes from. -/
  depth : Nat

/-- What a look at a part of the ranges shows. -/
inductive Look where
  | nothing
  | point (solution : LinearSolution)
  | part (part : Part)
  /-- The allowed number of steps was not enough. -/
  | unfinished

/-- Solves the relaxation in a part, unless it can be seen to have no integer point. -/
def look (program : IntegerProgram) (fuel depth : Nat) (tableau : Tableau) : Look :=
  if program.isPossible tableau then
    match tableau.optimum Tableau.reviseStep fuel with
    | .infeasible => .nothing
    | .unbounded _ | .unfinished => .unfinished
    | .reached final =>
      let solution := program.relaxed.solutionAt final
      match program.fractional? solution.point with
      | none => .point solution
      | some (number, _) => .part ⟨final, solution.objective, number, depth⟩
  else .nothing

/-- The number of divisions from which on a part gets cuts. -/
def cutDepth : Nat := 12

/-- Looks at the parts above and below the value of the variable by which a part is divided. -/
def divide (program : IntegerProgram) (step : Rat) (fuel : Nat) (best : Option LinearSolution)
    (part : Part) : List Look :=
  let range := part.tableau.rangeOf part.number
  let value := part.tableau.valueOf part.number
  let capped := program.capAll step part.objective best part.tableau
  let base := if part.depth < cutDepth then capped else capped.withCut program.isWhole part.number
  [range.atMost value.floor, range.atLeast value.ceil].map fun half =>
    program.look fuel (part.depth + 1) (base.narrow part.number half)

/-- The parts still to be divided, by the bounds that their relaxations put on the objective, and
the best integer point so far. -/
structure Frontier where
  parts : List Part := []
  best : Option LinearSolution := none

namespace Frontier

/-- Whether the best point is as good as any that has at least the given objective. -/
def isSettled (frontier : Frontier) (step objective : Rat) : Bool :=
  frontier.best.any fun known => known.objective ≤ roundedUp step objective

/-- Puts a part before all those whose bound is not lower. -/
def insert (step : Rat) (part : Part) : List Part → List Part
  | [] => [part]
  | other :: rest =>
    if roundedUp step other.objective < roundedUp step part.objective then
      other :: insert step part rest
    else part :: other :: rest

/-- Adds what a look at a part shows, none if the look was not finished. -/
def add (step : Rat) (frontier : Frontier) : Look → Option Frontier
  | .nothing => some frontier
  | .unfinished => none
  | .point solution =>
    if frontier.isSettled step solution.objective then some frontier
    else some { frontier with best := some solution }
  | .part part =>
    if frontier.isSettled step part.objective then some frontier
    else some { frontier with parts := insert step part frontier.parts }

end Frontier

/-- Divides parts of the ranges, at most `parts` of them and always the one with the lowest bound,
until none can have a better integer point than the best one so far. -/
def search (program : IntegerProgram) (step : Rat) (fuel : Nat) :
    (parts : Nat) → Frontier → Verdict
  | _, ⟨[], none⟩ => .infeasible
  | _, ⟨[], some best⟩ => .optimal best
  | 0, ⟨_ :: _, _⟩ => .unfinished
  | parts + 1, ⟨part :: rest, best⟩ =>
    let frontier : Frontier := ⟨rest, best⟩
    if frontier.isSettled step part.objective then program.search step fuel parts ⟨[], best⟩
    else
      match (program.divide step fuel best part).foldlM (Frontier.add step) frontier with
      | some next => program.search step fuel parts next
      | none => .unfinished

/-- The rows as halfspaces, one for each bound. -/
def halfspaces (program : IntegerProgram) : List Halfspace :=
  program.relaxed.rows.toList.flatMap fun (line, range) =>
    let entries := entriesOf line
    (range.upper.map fun high => ⟨entries, high⟩).toList ++
      (range.lower.map fun low =>
        ⟨entries.map fun (number, entry) => (number, -entry), -low⟩).toList

/-- The rounded rows that cut off the values of a tableau. -/
def roundedRows (program : IntegerProgram) (tableau : Tableau) : List Halfspace :=
  program.halfspaces.filterMap fun halfspace => do
    let row ← CountedRow.of? tableau program.requiresInteger halfspace
    return (← row.deepest?).halfspace

/-- The number of times that rows are rounded. -/
def roundingLimit : Nat := 3

/-- Adds rounded rows to the tableau of the relaxation as long as they cut off its values, at most
the given number of times. -/
def strengthened (program : IntegerProgram) (fuel : Nat) : (rounds : Nat) → Tableau → Tableau
  | 0, tableau => tableau
  | rounds + 1, tableau =>
    match program.roundedRows tableau with
    | [] => tableau
    | cuts =>
      let cut := cuts.foldl Tableau.addHalfspace tableau
      match cut.optimum Tableau.reviseStep fuel with
      | .reached final =>
        program.strengthened fuel rounds
          (final.withoutIdle (program.relaxed.ranges.size + program.relaxed.rows.size))
      | _ => cut

/-- Whether the integers have only finitely many values. -/
def isBounded (program : IntegerProgram) : Bool :=
  (program.relaxed.ranges.zip program.isInteger).all fun (range, isInteger) =>
    !isInteger || (range.lower.isSome && range.upper.isSome)

/-- The relaxation with the integers kept at the values nearest to given ones. -/
def completed (program : IntegerProgram) (values : FloatArray) : LinearProgram :=
  { program.relaxed with
    ranges := program.relaxed.ranges.mapIdx fun number range =>
      if program.requiresInteger number then
        let value : Rat := (ratOfFloat (values.get! number).round).floor
        ⟨some value, some value⟩
      else range }

/-- The number of steps in doubles for one part of the ranges. -/
def scoutSteps : Nat := powTen 4

/-- The number of parts of the ranges that are looked at in doubles. -/
def scoutParts : Nat := powTen 7

/-- What is found out in doubles. The values of the integers are taken over, and all else is solved
exactly. -/
def scouted (program : IntegerProgram) (fuel : Nat) (root : Tableau) : Verdict :=
  let scout : Scout :=
    { isInteger := program.isInteger
      objective := Estimate.vector program.relaxed.objective
      step := floatOfRat program.granularity }
  match scout.search scoutSteps scoutParts [Estimate.ofTableau root] none with
  | none => .unfinished
  | some none => .infeasible
  | some (some found) => (program.completed found.values).solve fuel

/-- The number of parts of the ranges that are looked at exactly before doubles are used, for a
tableau of some size. -/
def exactParts (root : Tableau) : Nat :=
  40000 / (root.lines.size * root.free.size + 1)

/-- Searches a frontier, in doubles if there are finitely many integers and many parts of their
ranges. -/
def searchParts (program : IntegerProgram) (parts fuel : Nat) (root : Tableau)
    (frontier : Frontier) : Verdict :=
  let step := program.granularity
  let few := exactParts root
  if program.isBounded && few < parts then
    match program.search step fuel few frontier with
    | .unfinished => program.scouted fuel root
    | verdict => verdict
  else program.search step fuel parts frontier

/-- Searches from the tableau of the relaxation, unless the equations have no solution. -/
def searchFrom (program : IntegerProgram) (parts fuel : Nat) (root : Tableau) : Verdict :=
  if program.isSolvable then
    let base := program.strengthened fuel roundingLimit root
    match Frontier.add program.granularity {} (program.look fuel 0 base) with
    | some frontier => program.searchParts parts fuel base frontier
    | none => .unfinished
  else .infeasible

/-- Solves a program, looking at no more than `parts` parts of the ranges and taking no more than
`fuel` steps for each. The duals are those of the relaxation in the part with the best point. Where
the relaxation has no limit, no integer point is looked for. -/
def solve (program : IntegerProgram) (parts fuel : Nat) : Verdict :=
  match program.relaxed.optimum fuel with
  | .infeasible => .infeasible
  | .unbounded last =>
    if (program.fractional? (program.relaxed.solutionAt last).point).isNone then .unbounded
    else .limitless
  | .unfinished => .unfinished
  | .reached root => program.searchFrom parts fuel root

end IntegerProgram

end PatternCovering
