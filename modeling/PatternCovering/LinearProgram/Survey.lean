import PatternCovering.LinearProgram.Integer

/-!
# A first look at an integer program

Before a program with integers is solved, its rows and then its variables are looked at one by one.
A row that holds anyway is dropped, a row of one variable becomes a part of its range, and the
ranges of integers are narrowed. A variable that no row keeps from going where the objective wants
it goes there, and if it can go on without limit the look is over: there is no optimum, whether or
not there is a point. A variable that an equation gives by others is put in for. This is repeated as
long as something is left out. What comes first is what is discovered.
-/

namespace PatternCovering

/-- What is left of a program, and how far a row may be missed. -/
structure Survey where
  objective : Array Rat
  ranges : Array Range
  rows : Array (Array Rat × Range)
  isInteger : Array Bool
  /-- The variables that are left out. -/
  isGone : Array Bool
  tolerance : Rat

/-- What ends a first look. -/
inductive Discovery where
  | infeasible
  /-- The objective has no limit, if there is a point at all. -/
  | limitless

/-- The sum of some bounds: that of the finite ones, and the number of the others. -/
structure BoundSum where
  sum : Rat := 0
  numInfinite : Nat := 0

namespace BoundSum

/-- The sum with a further bound. -/
def add (total : BoundSum) : Option Rat → BoundSum
  | some bound => { total with sum := total.sum + bound }
  | none => { total with numInfinite := total.numInfinite + 1 }

/-- The sum without one of its bounds, none if it is infinite. -/
def without? (total : BoundSum) : Option Rat → Option Rat
  | some bound => if total.numInfinite = 0 then some (total.sum - bound) else none
  | none => if total.numInfinite = 1 then some total.sum else none

/-- The sum, none if it is infinite. -/
def value? (total : BoundSum) : Option Rat :=
  if total.numInfinite = 0 then some total.sum else none

end BoundSum

namespace Survey

/-- All of a program. -/
def ofProgram (program : IntegerProgram) (tolerance : Rat) : Survey where
  objective := program.relaxed.objective
  ranges := program.relaxed.ranges
  rows := program.relaxed.rows
  isInteger := program.isInteger
  isGone := program.isInteger.map fun _ => false
  tolerance := tolerance

/-- The range of a variable. -/
def rangeOf (survey : Survey) (number : Nat) : Range := survey.ranges.getD number {}

/-- The cost of a variable. -/
def costOf (survey : Survey) (number : Nat) : Rat := survey.objective.getD number 0

/-- Whether a variable has to be an integer. -/
def requiresInteger (survey : Survey) (number : Nat) : Bool := survey.isInteger.getD number false

/-- A row with its range. -/
def rowAt (survey : Survey) (row : Nat) : Array Rat × Range := survey.rows.getD row (#[], {})

/-- Whether a variable is in no row. -/
def isUnused (survey : Survey) (number : Nat) : Bool :=
  survey.rows.all fun (line, _) => line.getD number 0 = 0

/-- How much is left: the coefficients and the variables. -/
def size (survey : Survey) : Nat :=
  total (survey.rows.toList.map fun (line, _) => (entriesOf line).length) +
    (survey.isGone.toList.filter (!·)).length

/-- Leaves out a row. -/
def dropRow (survey : Survey) (row : Nat) : Survey :=
  { survey with rows := survey.rows.setIfInBounds row (#[], {}) }

/-- Sets the range of a variable. -/
def setRange (survey : Survey) (number : Nat) (range : Range) : Survey :=
  { survey with ranges := survey.ranges.setIfInBounds number range }

/-- Leaves out a variable at a value. -/
def fix (survey : Survey) (number : Nat) (value : Rat) : Survey :=
  { survey with
    rows := survey.rows.map fun (line, range) =>
      let entry := line.getD number 0
      if entry = 0 then (line, range)
      else (line.setIfInBounds number 0, range.minus (Range.only (entry * value)))
    ranges := survey.ranges.setIfInBounds number (Range.only value)
    isGone := survey.isGone.setIfInBounds number true }

/-- Leaves out a variable that is in no row at the bound that its cost asks for. -/
def settle (survey : Survey) (number : Nat) : Except Discovery Survey :=
  let range := survey.rangeOf number
  let cost := survey.costOf number
  match if 0 < cost then range.lower else if cost < 0 then range.upper else some range.corner with
  | some bound => .ok (survey.fix number bound)
  | none => .error .limitless

/-- Whether two bounds cross by more than the tolerance. -/
def isCrossed (survey : Survey) (range : Range) : Bool :=
  (range.widened survey.tolerance).isEmpty

/-- Whether a range lies in another one up to the tolerance. -/
def isWithin (survey : Survey) (range other : Range) : Bool :=
  other.lower.all (fun bound => range.lower.any (bound - survey.tolerance ≤ ·)) &&
    other.upper.all (fun bound => range.upper.any (· ≤ bound + survey.tolerance))

/-- A range narrowed to integers if a variable has to be one. -/
def onIntegers (survey : Survey) (number : Nat) (range : Range) : Range :=
  if survey.requiresInteger number then range.onMultiples 1 survey.tolerance else range

/-- Makes a row of one variable a part of its range. -/
def absorb (survey : Survey) (row number : Nat) (entry : Rat) (range : Range) :
    Except Discovery Survey :=
  let known := survey.rangeOf number
  let asked := range.times (1 / entry)
  let both := survey.onIntegers number (known.meet asked)
  let dropped := survey.dropRow row
  if survey.isWithin known asked then .ok dropped
  else if survey.isCrossed both then .error .infeasible
  else
    let narrowed := dropped.setRange number both
    match both.single? with
    | some value => .ok (narrowed.fix number value)
    | none => if narrowed.isUnused number then narrowed.settle number else .ok narrowed

/-- The sums of the bounds that the terms of a row have. -/
def activity (survey : Survey) (entries : List (Nat × Rat)) : BoundSum × BoundSum :=
  entries.foldl (fun (low, high) (number, entry) =>
    let range := (survey.rangeOf number).times entry
    (low.add range.lower, high.add range.upper)) ({}, {})

/-- Narrows the ranges of the integers in a row to what the others leave them. -/
def tighten (survey : Survey) (entries : List (Nat × Rat)) (range : Range) : Survey :=
  let (low, high) := survey.activity entries
  entries.foldl (fun survey (number, entry) =>
    if survey.requiresInteger number then
      let own := (survey.rangeOf number).times entry
      let others : Range := ⟨low.without? own.lower, high.without? own.upper⟩
      let left := survey.onIntegers number ((range.minus others).times (1 / entry))
      survey.setRange number ((survey.rangeOf number).meet left)
    else survey) survey

/-- Looks at a row. -/
def visitRow (survey : Survey) (row : Nat) : Except Discovery Survey :=
  let (line, range) := survey.rowAt row
  match entriesOf line with
  | [] => if survey.isWithin (Range.only 0) range then .ok (survey.dropRow row)
    else .error .infeasible
  | [(number, entry)] => survey.absorb row number entry range
  | entries =>
    let (low, high) := survey.activity entries
    let reached : Range := ⟨low.value?, high.value?⟩
    if survey.isCrossed (range.meet reached) then .error .infeasible
    else if survey.isWithin reached range then .ok (survey.dropRow row)
    else if entries.all fun (number, _) => survey.requiresInteger number then
      let step := IntegerProgram.commonMeasure (entries.map (·.2))
      let rounded := range.onMultiples step survey.tolerance
      if rounded.isEmpty then .error .infeasible
      else
        let kept := { survey with rows := survey.rows.setIfInBounds row (line, rounded) }
        .ok (kept.tighten entries rounded)
    else .ok (survey.tighten entries range)

/-- Whether some row keeps a variable from going up or down without limit. -/
def isLimited (survey : Survey) (number : Nat) (rising : Bool) : Bool :=
  survey.rows.any fun (line, range) =>
    let entry := line.getD number 0
    entry ≠ 0 &&
      (if rising == (0 < entry : Bool) then range.upper.isSome else range.lower.isSome)

/-- Leaves out a variable with all its rows, which it satisfies by going far enough. -/
def release (survey : Survey) (number : Nat) : Survey :=
  { survey with
    rows := survey.rows.map fun (line, range) =>
      if line.getD number 0 = 0 then (line, range) else (#[], {})
    isGone := survey.isGone.setIfInBounds number true }

/-- Sends a variable up or down as far as it goes, where no row keeps it from going there. -/
def send (survey : Survey) (number : Nat) (rising : Bool) : Except Discovery Survey :=
  let range := survey.rangeOf number
  match if rising then range.upper else range.lower with
  | some bound => .ok (survey.fix number bound)
  | none => if survey.costOf number = 0 then .ok (survey.release number) else .error .limitless

/-- Looks at a variable. -/
def visitVariable (survey : Survey) (number : Nat) : Except Discovery Survey :=
  let range := survey.onIntegers number (survey.rangeOf number)
  let kept := survey.setRange number range
  let cost := survey.costOf number
  if survey.isGone.getD number true then .ok survey
  else if survey.isCrossed range then .error .infeasible
  else if kept.isUnused number then kept.settle number
  else
    match range.single? with
    | some value => .ok (kept.fix number value)
    | none =>
      if cost ≤ 0 && !kept.isLimited number true then kept.send number true
      else if 0 ≤ cost && !kept.isLimited number false then kept.send number false
      else .ok kept

/-- Puts in for a variable what an equation gives for it. -/
def substitute (survey : Survey) (row number : Nat) (value : Rat) : Survey :=
  let (line, _) := survey.rowAt row
  let entry := line.getD number 1
  let entries := entriesOf line
  { (survey.dropRow row) with
    objective := addEntries (-(survey.costOf number / entry)) entries survey.objective
    rows := (survey.dropRow row).rows.map fun (other, range) =>
      let factor := other.getD number 0 / entry
      if factor = 0 then (other, range)
      else (addEntries (-factor) entries other, range.minus (Range.only (factor * value)))
    isGone := survey.isGone.setIfInBounds number true }

/-- Of the two variables of an equation, with their coefficients, the one to be put in for and the
other one: a continuous one rather than an integer, and else that with the smaller coefficient. -/
def ordered (survey : Survey) (first second : Nat × Rat) : (Nat × Rat) × (Nat × Rat) :=
  match survey.requiresInteger first.1, survey.requiresInteger second.1 with
  | true, false => (second, first)
  | false, true => (first, second)
  | _, _ => if second.2.abs < first.2.abs then (second, first) else (first, second)

/-- Looks at an equation between two variables. Between integers it is used if it gives one of them
as an integer in any case. -/
def visitPair (survey : Survey) (row : Nat) (first second : Nat × Rat) (value : Rat) :
    Except Discovery Survey :=
  let ((number, entry), (other, factor)) := survey.ordered first second
  let left := ((Range.only value).minus ((survey.rangeOf number).times entry)).times (1 / factor)
  let joined := (survey.setRange other ((survey.rangeOf other).meet left)).substitute row number
    value
  if survey.requiresInteger number then
    if (factor / entry).den ≠ 1 then .ok survey
    else if (value / entry).den ≠ 1 then .error .infeasible
    else .ok joined
  else .ok joined

/-- Whether a variable of an equation is in no other row, has a range that the others imply, and is
an integer with them if it has to be one. -/
def isGiven (survey : Survey) (row : Nat) (entries : List (Nat × Rat)) (value : Rat)
    (number : Nat) (entry : Rat) : Bool :=
  let own := (survey.rangeOf number).times entry
  let (low, high) := survey.activity entries
  let others : Range := ⟨low.without? own.lower, high.without? own.upper⟩
  let implied := ((Range.only value).minus others).times (1 / entry)
  (survey.dropRow row).isUnused number && survey.isWithin implied (survey.rangeOf number) &&
    (!survey.requiresInteger number || ((value / entry).den = 1 &&
      entries.all fun (other, factor) =>
        survey.requiresInteger other && (factor / entry).den = 1))

/-- Looks at a row once more if it is an equation. -/
def visitEquation (survey : Survey) (row : Nat) : Except Discovery Survey :=
  let (line, range) := survey.rowAt row
  match range.single?, entriesOf line with
  | none, _ => .ok survey
  | some value, [first, second] => survey.visitPair row first second value
  | some value, entries =>
    match entries.find? fun (number, entry) => survey.isGiven row entries value number entry with
    | some (number, _) => .ok (survey.substitute row number value)
    | none => .ok survey

/-- Looks once at all rows, then at all variables, then at the equations. -/
def visitAll (survey : Survey) : Except Discovery Survey := do
  let rows := List.range survey.rows.size
  let seen ← rows.foldlM visitRow survey
  let settled ← (List.range survey.ranges.size).foldlM visitVariable seen
  rows.foldlM visitEquation settled

/-- Looks at everything again as long as something is left out, at most `rounds` times. -/
def explore : (rounds : Nat) → Survey → Except Discovery Survey
  | 0, survey => .ok survey
  | rounds + 1, survey => do
    let next ← survey.visitAll
    if next.size < survey.size then explore rounds next else return next

/-- A first look at a program. -/
def look (program : IntegerProgram) (tolerance : Rat) : Except Discovery Survey :=
  let survey := ofProgram program tolerance
  explore (survey.size + 1) survey

/-- Whether a range has no bound that is not an integer. -/
def isWholeRange (range : Range) : Bool :=
  range.lower.all (·.den = 1) && range.upper.all (·.den = 1)

/-- The rows that are left of a variable, with its coefficient set to one. -/
def scaledRows (survey : Survey) (number : Nat) : List (List (Nat × Rat) × Range) :=
  survey.rows.toList.filterMap fun (line, range) =>
    let entry := line.getD number 0
    if entry = 0 then none
    else some ((entriesOf line).map fun (other, factor) => (other, factor / entry),
      range.times (1 / entry))

/-- Whether a row makes a variable an integer once it is at a bound: the others are integers, and
so are their coefficients and the bounds. -/
def isWholeRow (survey : Survey) (number : Nat) (row : List (Nat × Rat) × Range) : Bool :=
  isWholeRange row.2 && row.1.all fun (other, factor) =>
    factor.den = 1 && (other = number || survey.requiresInteger other)

/-- Whether a variable is an integer at the best points in any case, by an equation or because all
that may stop it are integers. -/
def isImplied (survey : Survey) (number : Nat) : Bool :=
  let rows := survey.scaledRows number
  rows.any (fun row => row.2.single?.isSome && survey.isWholeRow number row) ||
    (isWholeRange (survey.rangeOf number) && rows.all (survey.isWholeRow number))

/-- What is left, with the variables that are integers in any case among the integers. -/
def withImplied (survey : Survey) : Survey :=
  (List.range survey.ranges.size).foldl (fun survey number =>
    if survey.isImplied number then
      { survey with isInteger := survey.isInteger.setIfInBounds number true }
    else survey) survey

/-- Whether some row is about integers and other variables. -/
def isMixed (survey : Survey) : Bool :=
  survey.rows.any fun (line, _) =>
    let entries := entriesOf line
    entries.any (fun (number, _) => survey.requiresInteger number) &&
      entries.any fun (number, _) => !survey.requiresInteger number

/-- Whether a point satisfies all that is left. -/
def admits (survey : Survey) (point : Array Rat) : Bool :=
  (survey.ranges.zip (survey.isGone.zip point)).all (fun (range, isGone, value) =>
      isGone || range.contains value) &&
    survey.rows.all fun (line, range) =>
      survey.isWithin (Range.only (innerProduct line point)) range

/-- The number of rows in which a variable has a positive coefficient, less that of the rows in
which it has a negative one. -/
def balance (survey : Survey) (number : Nat) : Int :=
  survey.rows.foldl (fun balance (line, _) =>
    let entry := line.getD number 0
    if 0 < entry then balance + 1 else if entry < 0 then balance - 1 else balance) 0

/-- The points at which integers are tried first: zero, the lower bounds, the upper bounds, and for
every variable the bound at which it makes its rows smaller. -/
def plainPoints (survey : Survey) : List (Array Rat) :=
  let numbers := Array.range survey.ranges.size
  let lower (number : Nat) : Rat := (survey.rangeOf number).lower.getD 0
  let upper (number : Nat) : Rat := (survey.rangeOf number).upper.getD 0
  [numbers.map fun _ => 0, numbers.map lower, numbers.map upper,
    numbers.map fun number => if 0 < survey.balance number then lower number else upper number]

/-- Whether only integers are left, and one of the first points satisfies all. -/
def hasPlainPoint (survey : Survey) : Bool :=
  (survey.isInteger.zip survey.isGone).all (fun (isInteger, isGone) => isInteger || isGone) &&
    survey.plainPoints.any survey.admits

end Survey

end PatternCovering
