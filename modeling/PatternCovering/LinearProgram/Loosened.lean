import PatternCovering.LinearProgram.Survey

/-!
# Points that miss integers by a little

A point counts as one of an integer program if it misses integers by no more than a tolerance. Such
a point may be better than all integer points. It is looked for near the optimum of the relaxation:
what costs more than there is to be gained is kept from moving, and the cuts for the integers that
are missed are loosened by the tolerance unless they are about integers alone. Where an integer
point that is as good as any other is found already by rounding, nothing more is looked for.
-/

namespace PatternCovering.IntegerProgram

/-- The part from which on a value is rounded up. -/
def roundingPart : Rat := mkRat 4 5

/-- A value rounded to an integer, down unless it is close to the next one. -/
def roundedValue (value : Rat) : Rat := (value + 1 - roundingPart).floor

/-- Whether the integers of a point, rounded, allow for a given objective. -/
def isFoundByRounding (program : IntegerProgram) (fuel : Nat) (point : Array Rat)
    (objective : Rat) : Bool :=
  let rounded : LinearProgram := { program.relaxed with
    ranges := program.relaxed.ranges.mapIdx fun number (range : Range) =>
      if program.requiresInteger number then
        range.meet (Range.only (roundedValue (point.getD number 0)))
      else range }
  match rounded.solve fuel with
  | .optimal solution => solution.objective ≤ objective
  | _ => false

/-- Keeps the free value of a column from moving so far that its cost alone exceeds a gain. -/
def hold (gain : Rat) (tableau : Tableau) (column : Nat) : Tableau :=
  let number := tableau.free.getD column 0
  let cost := Tableau.coefficient tableau.costs column
  let range := tableau.rangeOf number
  let farthest := tableau.valueOf number + gain / cost
  if cost = 0 then tableau
  else tableau.narrow number
    (if 0 < cost then range.atMost farthest else range.atLeast farthest)

/-- The tableau with the ranges of the integers narrowed to what the rows leave them. -/
def confined (program : IntegerProgram) (tolerance : Rat) (tableau : Tableau) : Tableau :=
  let survey := Survey.ofProgram { program with
    relaxed := { program.relaxed with
      ranges := tableau.ranges.extract 0 program.relaxed.ranges.size } } tolerance
  let narrowed := program.relaxed.rows.foldl (fun survey (line, range) =>
    survey.tighten (entriesOf line) range) survey
  (List.range program.relaxed.ranges.size).foldl (fun tableau number =>
    if program.requiresInteger number then tableau.narrow number (narrowed.rangeOf number)
    else tableau) tableau

/-- The variables of a point that have to be integers and are not. -/
def missed (program : IntegerProgram) (point : Array Rat) : List Nat :=
  (List.range point.size).filter fun number =>
    program.requiresInteger number && (point.getD number 0).den ≠ 1

/-- A cut of a tableau, loosened by the tolerance unless it is about integers alone. -/
def loosenedCut? (program : IntegerProgram) (tolerance : Rat) (tableau : Tableau) (number : Nat) :
    Option (Array Rat × Rat) := do
  let (line, amount) ← tableau.cut? program.isWhole number
  let isExact := (entriesOf line).all fun (column, _) =>
    program.isWhole (tableau.free.getD column 0)
  return (line, if isExact then amount else amount - tolerance)

/-- The tableau with loosened cuts for all integers that are missed. -/
def withLoosenedCuts (program : IntegerProgram) (tolerance : Rat) (tableau : Tableau) : Tableau :=
  let point := (program.relaxed.solutionAt tableau).point
  ((program.missed point).filterMap (program.loosenedCut? tolerance tableau)).foldl
    (fun tableau (line, amount) => tableau.addCut line amount) tableau

/-- A point near the optimum of the relaxation that misses integers by no more than the tolerance
and is better than a given solution, if there is one. -/
def nearby? (program : IntegerProgram) (tolerance : Rat) (fuel : Nat) (root : Tableau)
    (best : LinearSolution) : Option LinearSolution := do
  let gain := best.objective - (program.relaxed.solutionAt root).objective
  let held := (List.range root.free.size).foldl (hold gain) root
  let .reached settled := (program.confined tolerance held).optimum Tableau.reviseStep fuel | none
  let .reached final :=
    (program.withLoosenedCuts tolerance settled).optimum Tableau.reviseStep fuel | none
  let solution := program.relaxed.solutionAt final
  if solution.objective < best.objective &&
      (program.missed solution.point).all fun number =>
        distance (solution.point.getD number 0) ≤ tolerance then
    return solution
  else none

/-- The solution of a program that is reported for the best integer point. Only where a first look
leaves a row about integers and other variables may it be another point. -/
def loosened (program : IntegerProgram) (survey : Survey) (tolerance : Rat) (fuel : Nat)
    (best : LinearSolution) : LinearSolution :=
  if survey.withImplied.isMixed then
    match program.relaxed.optimum fuel with
    | .reached root =>
      let point := (program.relaxed.solutionAt root).point
      if program.isFoundByRounding fuel point best.objective then best
      else (program.nearby? tolerance fuel root best).getD best
    | _ => best
  else best

end PatternCovering.IntegerProgram
