import PatternCovering.LinearProgram

/-!
# The simplex method

Variables and rows are treated alike: each has a value and a range. A tableau writes some of them,
the basic ones, as linear combinations of the others, the free ones, and the objective as well. A
free value always lies in its range. First, basic values outside their ranges are brought to their
nearest bounds one after the other; then free values are moved as far as the objective improves.
Of all candidates the one of the smallest number is taken, so that no tableau comes up twice.

A tableau that is settled can be used again when the range of a value is narrowed: a basic value
that is then outside its range is brought back by the free value that costs the objective least, and
the tableau stays settled in its costs.
-/

namespace PatternCovering

/-- Values in ranges, the basic ones as combinations of the free ones. -/
structure Tableau where
  ranges : Array Range
  values : Array Rat
  /-- The number of the basic value of each line. -/
  basic : Array Nat
  /-- The number of the free value of each column. -/
  free : Array Nat
  lines : Array (Array Rat)
  /-- The objective in terms of the free values. -/
  costs : Array Rat

namespace Tableau

/-- The value of a number. -/
def valueOf (tableau : Tableau) (number : Nat) : Rat := tableau.values.getD number 0

/-- The range of a number. -/
def rangeOf (tableau : Tableau) (number : Nat) : Range := tableau.ranges.getD number {}

/-- The coefficient of a line at a column. -/
def coefficient (line : Array Rat) (column : Nat) : Rat := line.getD column 0

/-- How far a value may go up or down, if that is limited. -/
def room (tableau : Tableau) (number : Nat) (rising : Bool) : Option Rat :=
  let range := tableau.rangeOf number
  if rising then range.roomAbove (tableau.valueOf number)
  else range.roomBelow (tableau.valueOf number)

/-- Whether a value may go up or down at all. -/
def canMove (tableau : Tableau) (number : Nat) (rising : Bool) : Bool :=
  (tableau.room number rising).all fun room => 0 < room

/-- The tableau of a program: the variables are free and stand at a bound, the rows are basic. -/
def ofProgram (program : LinearProgram) : Tableau :=
  let size := program.ranges.size
  let point := program.ranges.map Range.corner
  { ranges := program.ranges ++ program.rows.map (·.2)
    values := point ++ program.rows.map fun (line, _) => innerProduct line point
    basic := (Array.range program.rows.size).map (size + ·)
    free := Array.range size
    lines := program.rows.map (·.1)
    costs := program.objective }

/-- Moves the free value of a column, the basic values following it. -/
def move (tableau : Tableau) (column : Nat) (step : Rat) : Tableau :=
  let moved := tableau.values.modify (tableau.free.getD column 0) (· + step)
  { tableau with
    values := (tableau.basic.zip tableau.lines).foldl (fun values (number, line) =>
      let entry := coefficient line column
      if entry = 0 then values else values.modify number (· + entry * step)) moved }

/-- A line solved for the free value of a column, whose place its basic value takes. -/
def solvedFor (line : Array Rat) (column : Nat) : Array Rat :=
  let pivot := coefficient line column
  line.mapIdx fun place entry => if place = column then 1 / pivot else -entry / pivot

/-- A line with another one, given by its entries, put in for the free value of a column. -/
def substitute (replacement : List (Nat × Rat)) (column : Nat) (line : Array Rat) : Array Rat :=
  let factor := coefficient line column
  if factor = 0 then line
  else addEntries factor replacement (line.setIfInBounds column 0)

/-- Exchanges the basic value of a line with the free value of a column. -/
def exchange (tableau : Tableau) (row column : Nat) : Tableau :=
  let replacement := solvedFor (tableau.lines.getD row #[]) column
  let entries := entriesOf replacement
  { tableau with
    basic := tableau.basic.setIfInBounds row (tableau.free.getD column 0)
    free := tableau.free.setIfInBounds column (tableau.basic.getD row 0)
    lines := tableau.lines.mapIdx fun place line =>
      if place = row then replacement else substitute entries column line
    costs := substitute entries column tableau.costs }

/-- Of the places whose number passes a test, the one with the smallest number. -/
def firstPlace? (numbers : Array Nat) (test : (place number : Nat) → Bool) : Option Nat :=
  (List.range numbers.size).foldl (fun best place =>
    let number := numbers.getD place 0
    if test place number && best.all (fun other => number < numbers.getD other 0) then some place
    else best) none

/-- What one step comes to. -/
inductive Step where
  /-- Nothing is left to be done. -/
  | settled
  /-- There is something to be done, but no way to do it. -/
  | stuck
  | next (tableau : Tableau)

/-- Brings the first basic value that is outside its range to its nearest bound. -/
def repairStep (tableau : Tableau) : Step :=
  match firstPlace? tableau.basic fun _ number =>
      !(tableau.rangeOf number).contains (tableau.valueOf number) with
  | none => .settled
  | some row =>
    let number := tableau.basic.getD row 0
    let value := tableau.valueOf number
    let target := (tableau.rangeOf number).nearest value
    let line := tableau.lines.getD row #[]
    let helps (column other : Nat) : Bool :=
      let entry := coefficient line column
      entry ≠ 0 && tableau.canMove other ((value < target : Bool) == (0 < entry : Bool))
    match firstPlace? tableau.free helps with
    | none => .stuck
    | some column =>
      let step := (target - value) / coefficient line column
      .next ((tableau.move column step).exchange row column)

/-- The tableau with another range for a value; a free value that is outside of it is moved to its
nearest bound. -/
def narrow (tableau : Tableau) (number : Nat) (range : Range) : Tableau :=
  let narrowed := { tableau with ranges := tableau.ranges.setIfInBounds number range }
  match tableau.free.findIdx? (· == number) with
  | none => narrowed
  | some column =>
    let value := tableau.valueOf number
    narrowed.move column (range.nearest value - value)

/-- What the objective changes by for each unit that a line gains by the free value of a column, if
that value can move so that the line goes up or down. -/
def price? (tableau : Tableau) (line : Array Rat) (rising : Bool) (column : Nat) : Option Rat :=
  let entry := coefficient line column
  if entry ≠ 0 && tableau.canMove (tableau.free.getD column 0) (rising == (0 < entry : Bool)) then
    some (coefficient tableau.costs column / entry).abs
  else none

/-- The column whose free value makes a line go up or down at the least price, the one of the
smallest number among equals. -/
def cheapest? (tableau : Tableau) (line : Array Rat) (rising : Bool) : Option Nat :=
  ((List.range tableau.free.size).foldl (fun best column =>
    match tableau.price? line rising column, best with
    | none, _ => best
    | some price, none => some (column, price)
    | some price, some (other, least) =>
      if price < least ||
          (price = least && tableau.free.getD column 0 < tableau.free.getD other 0) then
        some (column, price)
      else best) none).map (·.1)

/-- Brings the first basic value outside its range to its nearest bound at the least price. -/
def reviseStep (tableau : Tableau) : Step :=
  match firstPlace? tableau.basic fun _ number =>
      !(tableau.rangeOf number).contains (tableau.valueOf number) with
  | none => .settled
  | some row =>
    let number := tableau.basic.getD row 0
    let value := tableau.valueOf number
    let target := (tableau.rangeOf number).nearest value
    let line := tableau.lines.getD row #[]
    match tableau.cheapest? line (value < target) with
    | none => .stuck
    | some column =>
      let step := (target - value) / coefficient line column
      .next ((tableau.move column step).exchange row column)

/-- How far a basic value lets the free value of a column go up or down, if it limits it. -/
def limit (tableau : Tableau) (column : Nat) (rising : Bool) (number : Nat) (line : Array Rat) :
    Option Rat :=
  let entry := coefficient line column
  if entry = 0 then none
  else (tableau.room number ((0 < entry : Bool) == rising)).map (· / entry.abs)

/-- The line whose basic value is the first to limit the free value of a column, and how far it lets
that value go. -/
def tightest? (tableau : Tableau) (column : Nat) (rising : Bool) : Option (Nat × Rat) :=
  (List.range tableau.lines.size).foldl (fun best row =>
    let number := tableau.basic.getD row 0
    match tableau.limit column rising number (tableau.lines.getD row #[]), best with
    | none, _ => best
    | some room, none => some (row, room)
    | some room, some (other, least) =>
      if room < least || (room = least && number < tableau.basic.getD other 0) then some (row, room)
      else best) none

/-- Moves the first free value that improves the objective as far as it goes. -/
def improveStep (tableau : Tableau) : Step :=
  let rises (column : Nat) : Bool := coefficient tableau.costs column < 0
  match firstPlace? tableau.free fun column number =>
      coefficient tableau.costs column ≠ 0 && tableau.canMove number (rises column) with
  | none => .settled
  | some column =>
    let rising := rises column
    let signed (room : Rat) : Rat := if rising then room else -room
    let crossing (row : Nat) (room : Rat) : Step :=
      .next ((tableau.move column (signed room)).exchange row column)
    match tableau.room (tableau.free.getD column 0) rising, tableau.tightest? column rising with
    | none, none => .stuck
    | none, some (row, room) => crossing row room
    | some own, none => .next (tableau.move column (signed own))
    | some own, some (row, room) =>
      if own ≤ room then .next (tableau.move column (signed own)) else crossing row room

/-- How steps end. -/
inductive Ending where
  | settled (tableau : Tableau)
  | stuck (tableau : Tableau)
  | unfinished

/-- Takes steps until there are none left, at most `fuel` of them. -/
def run (step : Tableau → Step) : (fuel : Nat) → Tableau → Ending
  | 0, _ => .unfinished
  | fuel + 1, tableau =>
    match step tableau with
    | .settled => .settled tableau
    | .stuck => .stuck tableau
    | .next changed => run step fuel changed

/-- What a tableau comes to when all is done. -/
inductive Optimum where
  | reached (tableau : Tableau)
  | infeasible
  /-- From the values of the tableau the objective improves without limit. -/
  | unbounded (tableau : Tableau)
  | unfinished

/-- Brings all values into their ranges by the given steps, then improves the objective, in at most
`fuel` steps each. The steps move values to bounds of their ranges, which an empty range does not
keep apart. -/
def optimum (repair : Tableau → Step) (fuel : Nat) (tableau : Tableau) : Optimum :=
  if tableau.ranges.any Range.isEmpty then .infeasible
  else
    match run repair fuel tableau with
    | .unfinished => .unfinished
    | .stuck _ => .infeasible
    | .settled feasible =>
      match run improveStep fuel feasible with
      | .unfinished => .unfinished
      | .stuck last => .unbounded last
      | .settled final => .reached final

/-- The rate at which the objective changes with a value: its cost if it is free. -/
def rate (tableau : Tableau) (number : Nat) : Rat :=
  match tableau.free.findIdx? (· == number) with
  | some column => coefficient tableau.costs column
  | none => 0

end Tableau

namespace LinearProgram

/-- The solution that a tableau of the program shows. -/
def solutionAt (program : LinearProgram) (tableau : Tableau) : LinearSolution :=
  let size := program.ranges.size
  let point := tableau.values.extract 0 size
  { objective := innerProduct program.objective point
    point
    duals := (Array.range program.rows.size).map fun row => tableau.rate (size + row) }

/-- The best tableau of a program, in at most `fuel` steps each to make it feasible and to improve
it. -/
def optimum (program : LinearProgram) (fuel : Nat) : Tableau.Optimum :=
  (Tableau.ofProgram program).optimum Tableau.repairStep fuel

/-- Solves a program in at most `fuel` steps each to make it feasible and to improve it. -/
def solve (program : LinearProgram) (fuel : Nat) : Verdict :=
  match program.optimum fuel with
  | .reached final => .optimal (program.solutionAt final)
  | .infeasible => .infeasible
  | .unbounded _ => .unbounded
  | .unfinished => .unfinished

end LinearProgram

end PatternCovering
