import PatternCovering.Datum.Arithmetic

/-!
# Options of the exact engine

The time limit and the tolerance for integers are given as plain data. A value that is no number or
is out of range is passed over, and the option stays as it was; only a list or a record is refused.
-/

namespace PatternCovering

/-- How a model is to be solved. -/
structure SolveOptions where
  /-- Whether there is time for more than a look at the model. -/
  hasTime : Bool := true
  /-- How far an integer may be missed. -/
  tolerance : Rat := mkRat 1 (powTen 6)

namespace SolveOptions

/-- A time limit up to this one is over before the first step. -/
def noTime : Rat := mkRat 1 (powTen 6)

/-- The least tolerance that can be set. -/
def leastTolerance : Rat := mkRat 1 (powTen 10)

/-- Whether an integer has 32 bits. -/
def isShort (n : Int) : Bool := decide (-(powTwo 31 : Int) ≤ n) && decide (n < powTwo 31)

/-- The finite number that an option is set to: a double, a short integer, or a text of either. -/
def value? : Datum → Option Rat
  | .number (.int n) => if isShort n then some n else none
  | .number (.float x) => (Number.float x).writtenValue?
  | .text s => (Decimal.readReal? s).bind fun x => (Number.float x).writtenValue?
  | _ => none

/-- Refuses an option that is no plain value. -/
def checkPlain : Datum → Except Fault Unit
  | .list _ | .record _ => .error .wrongType
  | _ => .ok ()

/-- The options with a time limit. -/
def withTimeLimit (options : SolveOptions) (given : Datum) : SolveOptions :=
  match value? given with
  | some limit => if 0 ≤ limit then { options with hasTime := noTime < limit } else options
  | none => options

/-- The options with a tolerance for integers. -/
def withTolerance (options : SolveOptions) (given : Datum) : SolveOptions :=
  match value? given with
  | some tolerance => if leastTolerance ≤ tolerance then { options with tolerance } else options
  | none => options

/-- The options as they are set one after the other, as far as they are not refused. -/
def read (timeLimit tolerance : Datum) : SolveOptions × Except Fault Unit :=
  match checkPlain timeLimit with
  | .error fault => ({}, .error fault)
  | .ok () =>
    let limited := ({} : SolveOptions).withTimeLimit timeLimit
    match checkPlain tolerance with
    | .error fault => (limited, .error fault)
    | .ok () => (limited.withTolerance tolerance, .ok ())

end SolveOptions

end PatternCovering
