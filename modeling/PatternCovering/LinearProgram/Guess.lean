import PatternCovering.LinearProgram.Certificate
import PatternCovering.LinearProgram.Estimate

/-!
# Guessed and confirmed

Where the objective cannot improve from the corner of the ranges, the optimum of a linear program is
guessed in doubles and then confirmed.
-/

namespace PatternCovering.LinearProgram

/-- The bound of a range that is nearest to a double, zero if there is none. -/
def nearestBound (range : Range) (value : Float) : Rat :=
  match range.lower, range.upper with
  | some low, some high =>
    if (value - floatOfRat low).abs ≤ (value - floatOfRat high).abs then low else high
  | _, _ => range.corner

/-- How the variables and rows of a program stand in an estimate. -/
def standingIn (program : LinearProgram) (estimate : Estimate) : Standing :=
  let ranges := program.ranges ++ program.rows.map (·.2)
  estimate.free.foldl (fun standing number =>
    standing.setIfInBounds number
      (some (nearestBound (ranges.getD number {}) (estimate.values.get! number))))
    (Array.replicate ranges.size none)

/-- Whether no variable can improve the objective from the corner of its range. -/
def isSettledAtCorner (program : LinearProgram) : Bool :=
  (program.ranges.zip program.objective).all fun (range, cost) =>
    isSettledAt range range.corner cost

/-- A solution that is guessed in at most `fuel` steps and confirmed. -/
def guessed? (program : LinearProgram) (fuel : Nat) : Option LinearSolution :=
  if program.isSettledAtCorner then
    match (Estimate.ofTableau (Tableau.ofProgram program)).settle fuel with
    | .settled estimate => program.confirmed? (program.standingIn estimate)
    | _ => none
  else none

end PatternCovering.LinearProgram
