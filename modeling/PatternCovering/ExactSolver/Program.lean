import PatternCovering.ExactSolver.Options
import PatternCovering.LinearProgram.Doubles
import PatternCovering.LinearProgram.Guess
import PatternCovering.LinearProgram.Loosened
import PatternCovering.Model
import PatternCovering.Status

/-!
# What a model comes to

A model with plain numbers is made into a program over the rationals, every double standing for the
decimal that writes it. A bound or a cost of very large size counts as infinite, a coefficient of
very small size as absent, and a cost of very small size makes no difference. A variable of infinite
cost is kept at the bound that it is pulled to. A row with a coefficient that is no number asks for
nothing.

A model without variables is optimal at zero whatever its rows ask for, and a model with a
coefficient of very large size is not solved at all. A linear program may miss its rows by a small
tolerance. Integers may be missed by the tolerance for integers, and a solution that for this reason
misses a bound by much more is an error. Where the objective of a program with integers has no limit
it is not found out whether there is an integer point, unless it is clear that there is none.
-/

namespace PatternCovering

/-- The values of a solved model; an objective need not be finite. -/
structure ExactSolution where
  objective : Datum
  point : Array Float
  duals : Array Rat

namespace ExactSolver

/-- The size from which on a bound or a cost counts as infinite. -/
def infiniteSize : Rat := (powTen 20 : Nat)

/-- The size up to which a coefficient counts as absent. -/
def absentSize : Rat := mkRat 1 (powTen 9)

/-- The size from which on a coefficient is refused. -/
def refusedSize : Rat := (powTen 15 : Nat)

/-- The size up to which a cost makes no difference. -/
def idleSize : Rat := mkRat 1 (powTen 7)

/-- How far a row may be missed without integers. -/
def feasibility : Rat := mkRat 1 (powTen 7)

/-- The value of data, none unless it is a finite number. -/
def finite? : Datum → Option Rat
  | .number n => n.writtenValue?
  | _ => none

/-- The value of a number, zero if it has none. -/
def exact (given : Datum) : Rat := (finite? given).getD 0

/-- The value of a bound that does not count as infinite. -/
def bound? (given : Option Datum) : Option Rat :=
  (given.bind finite?).filter fun value => value.abs < infiniteSize

/-- Whether a number is at least of the given size, and then whether it is positive. -/
def beyond? (size : Rat) (given : Datum) : Option Bool :=
  if Quantity.le (Quantity.report size) given then some true
  else if Quantity.le given (Quantity.report (-size)) then some false
  else none

/-- The place that the row or the column of an entry of the model stands for. -/
def placeOf (given : Datum) : Nat := (exact given).floor.toNat

/-- The entries of the matrix that do not count as absent. -/
def entries (model : Model Datum) : List (Entry Datum) :=
  model.entries.filter fun entry =>
    (finite? entry.value).all fun value => absentSize < value.abs

/-- A vector with one entry set for each of the given pairs. -/
def spread (size : Nat) (pairs : List (Nat × Rat)) : Array Rat :=
  pairs.foldl (fun line (place, value) => line.setIfInBounds place value) (Array.replicate size 0)

/-- The factor by which the objective is turned into one to be minimised. -/
def direction : Sense → Rat
  | .minimize => 1
  | .maximize => -1

/-- The cost of a variable in the objective to be minimised, zero if it makes no difference. -/
def costOf (sense : Sense) (added : Variable Datum) : Rat :=
  let cost := direction sense * exact added.objective
  if (beyond? infiniteSize added.objective).isSome || cost.abs ≤ idleSize then 0 else cost

/-- The range between two bounds, which must not cross by more than a little. -/
def rangeOf (lower upper : Option Datum) : Except Status Range :=
  let given : Range := ⟨bound? lower, bound? upper⟩
  match given.reconciled? feasibility with
  | some range => .ok range
  | none => .error .infeasible

/-- The entries of each row. -/
def entriesByRow (numRows : Nat) (known : List (Entry Datum)) : Array (List (Entry Datum)) :=
  known.foldl (fun rows entry => rows.modify (placeOf entry.row) (entry :: ·))
    (Array.replicate numRows [])

/-- A row with its coefficients. -/
def rowOf (size : Nat) (own : List (Entry Datum)) (row : Row Datum) :
    Except Status (Array Rat × Range) := do
  let range ← rangeOf row.lower row.upper
  return (spread size (own.map fun entry => (placeOf entry.column, exact entry.value)),
    if own.all fun entry => (finite? entry.value).isSome then range else {})

/-- The range that is left to a variable: all of it, or for an infinite cost the bound that the
variable is pulled to, which it must have. -/
def parked (sense : Sense) (added : Variable Datum) (range : Range) : Except Status Range :=
  match beyond? infiniteSize added.objective with
  | none => .ok range
  | some positive =>
    let whole := if added.isInteger.truthy then range.onMultiples 1 0 else range
    match if positive == (sense = .minimize : Bool) then whole.lower else whole.upper with
    | some bound => .ok ⟨some bound, some bound⟩
    | none => .error .error

/-- The program of a model, or what is known of the model without it. -/
def program (model : Model Datum) : Except Status IntegerProgram := do
  let size := model.vars.length
  let known := entries model
  let ranges ← model.vars.mapM fun added => rangeOf added.lower added.upper
  let rows ← ((entriesByRow model.rows.length known).toList.zip model.rows).mapM fun (own, row) =>
    rowOf size own row
  if known.any fun entry => (beyond? refusedSize entry.value).isSome then .error .notSolved
  let free ← (model.vars.zip ranges).mapM fun (added, range) => parked model.sense added range
  return {
    isInteger := (model.vars.map (·.isInteger.truthy)).toArray
    relaxed := {
      objective := (model.vars.map (costOf model.sense)).toArray
      ranges := free.toArray
      rows := rows.toArray } }

/-- Whether no row has more than one variable. -/
def isSeparable (program : LinearProgram) : Bool :=
  program.rows.all fun (line, _) => (line.toList.filter (· ≠ 0)).length ≤ 1

/-- The number of steps for one linear program. -/
def stepLimit : Nat := powTen 9

/-- The number of parts of the ranges for one integer program. -/
def partLimit : Nat := powTen 5

/-- The number of coefficients from which on a linear program is solved by a guess, if that can be
confirmed. -/
def guessSize : Nat := 1000

/-- What is found out about a linear program, which may miss its rows by a little. -/
def relaxedVerdict (program : LinearProgram) (steps : Nat) : Verdict :=
  let guess := if program.rows.size * program.ranges.size < guessSize then none
    else program.guessed? steps
  match guess with
  | some solution => .optimal solution
  | none =>
    match program.solve steps with
    | .infeasible => (program.widened feasibility).solve steps
    | verdict => verdict

/-- What is found out about a program with integers, on which a first look is taken. -/
def mixedVerdict (program : IntegerProgram) (tolerance : Rat) : Verdict :=
  match Survey.look program tolerance with
  | .error .infeasible => .infeasible
  | .error .limitless => .limitless
  | .ok survey =>
    let tightened := program.tightened tolerance
    match tightened.solve partLimit stepLimit with
    | .optimal best => .optimal (tightened.loosened survey tolerance stepLimit best)
    | .limitless => if survey.hasPlainPoint then .unbounded else .limitless
    | verdict => verdict

/-- What is found out about a program. Without time only one step is taken, unless every variable
can be looked at by itself. -/
def verdict (options : SolveOptions) (program : IntegerProgram) : Verdict :=
  let isFull := options.hasTime || isSeparable program.relaxed
  let isMixed := program.isInteger.any id
  match isFull, isMixed with
  | true, true => mixedVerdict program options.tolerance
  | true, false => relaxedVerdict program.relaxed stepLimit
  | false, true => (program.tightened options.tolerance).solve 1 1
  | false, false => relaxedVerdict program.relaxed 1

/-- Whether a cost is finite. -/
def isPlain (cost : Datum) : Bool := (finite? cost).isSome && (beyond? infiniteSize cost).isNone

/-- The part of the objective of a model at a point that comes from finite costs, exactly. -/
def exactObjective (model : Model Datum) (point : Array Rat) : Rat :=
  (model.vars.zip point.toList).foldl (fun sum (added, value) =>
    if isPlain added.objective then sum + exact added.objective * value else sum) 0

/-- The part of the objective of a model at a point that comes from finite costs, in doubles. -/
def roundedObjective (model : Model Datum) (point : Array Float) : Float :=
  (model.vars.zip point.toList).foldl (fun sum (added, value) =>
    if isPlain added.objective then sum + floatOfRat (exact added.objective) * value else sum) 0.0

/-- The objective of a model at a point, by the part that comes from finite costs. A cost that is
not finite counts where the variable is not zero, and one that is no number in any case. -/
def objectiveAt (model : Model Datum) (point : Array Float) (plain : Float) : Datum :=
  (model.vars.zip point.toList).foldl (fun sum (added, value) =>
    match beyond? infiniteSize added.objective with
    | some positive =>
      let sign := if positive == (0.0 < value : Bool) then 1.0 else -1.0
      if value == 0.0 then sum else Quantity.add sum (.float (sign / 0.0))
    | none => if isPlain added.objective then sum else .float Number.notANumber)
    (.float plain)

/-- Whether a solution misses a bound by so much that it is an error. -/
def isGross (options : SolveOptions) (program : IntegerProgram) (point : Array Rat) : Bool :=
  let violation := program.relaxed.violation point
  options.tolerance < violation && options.tolerance < violation * violation

/-- The solution of a model without integers. -/
def relaxedSolution (model : Model Datum) (program : LinearProgram) (found : LinearSolution) :
    ExactSolution :=
  let point := program.doublesOf found.point
  { objective := objectiveAt model point (roundedObjective model point)
    point
    duals := found.duals.map (direction model.sense * ·) }

/-- The solution of a model with integers, which has no duals. -/
def mixedSolution (model : Model Datum) (found : LinearSolution) : ExactSolution :=
  let point := found.point.map floatOfRat
  { objective := objectiveAt model point (floatOfRat (exactObjective model found.point))
    point
    duals := found.duals.map fun _ => 0 }

/-- The solution of a model without variables. -/
def emptySolution (model : Model Datum) : ExactSolution :=
  { objective := Quantity.zero, point := #[], duals := Array.replicate model.rows.length 0 }

/-- Solves a model, or finds out why it has no solution. -/
def solveModel (options : SolveOptions) (model : Model Datum) : Except Status ExactSolution := do
  if model.vars.isEmpty then return emptySolution model
  let program ← program model
  let isMixed := program.isInteger.any id
  match verdict options program with
  | .optimal found =>
    if !isMixed then return relaxedSolution model program.relaxed found
    else if isGross options program found.point then .error .error
    else return mixedSolution model found
  | .infeasible =>
    .error (if model.vars.any fun added => (beyond? infiniteSize added.objective).isSome then .error
      else .infeasible)
  | .unbounded => .error .unbounded
  | .limitless => .error .infeasibleOrUnbounded
  | .unfinished => .error (if options.hasTime then .iterationLimit else .timeLimit)

end ExactSolver

end PatternCovering
