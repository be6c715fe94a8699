import PatternCovering.Decimal.Written

/-!
# Numbers

A number is given as an integer of any size, as a double, or as a truth value that counts as zero
or one. A number keeps its form for as long as nothing is computed with it. Integers are combined
exactly; an operation with at least one double is done on doubles. Comparisons are exact between
all forms, and every comparison with not-a-number fails. A not-a-number that was given carries a
mark, so that the very same one can be recognised where it serves as a key.
-/

namespace PatternCovering

/-- A number in the form in which it was given. -/
inductive Number where
  | int (n : Int)
  | float (x : Float)
  | flag (b : Bool)
  /-- A given not-a-number with its mark. -/
  | nan (mark : Nat)

namespace Number

/-- The double that is not a number. -/
def notANumber : Float := 0.0 / 0.0

/-- The written form: digits of an integer, the shortest text of a double, the word of a flag. -/
def text : Number → String
  | int n => toString n
  | float x => Decimal.shortestText x
  | flag b => if b then "True" else "False"
  | nan _ => "nan"

/-- Whether a number is an integer of more digits than may be written. -/
def isTooLong : Number → Bool
  | int n => Decimal.mostIntegerDigits < digitCount n.natAbs
  | _ => false

/-- The integer a number is given by, unless it is a double. -/
def int? : Number → Option Int
  | int n => some n
  | flag b => some (if b then 1 else 0)
  | float _ | nan _ => none

/-- The double nearest to a number. -/
def toFloat : Number → Float
  | int n => floatOfInt n
  | float x => x
  | flag b => if b then 1.0 else 0.0
  | nan _ => notANumber

/-- Whether the double nearest to a number is finite or was given as a double. -/
def hasFloat : Number → Bool
  | int n => intHasFloat n
  | _ => true

/-- The exact value, or none for an infinity and for not-a-number. -/
def exactValue? : Number → Option Rat
  | int n => some n
  | flag b => some (if b then 1 else 0)
  | float x =>
    match Binary.ofFloat x with
    | .finite _ _ => some (ratOfFloat x)
    | _ => none
  | nan _ => none

/-- The value that is written, or none for an infinity and for not-a-number: of a double that of the
shortest decimal that reads back, which for an integer of moderate size is the integer itself. -/
def writtenValue? : Number → Option Rat
  | float x =>
    match Binary.ofFloat x with
    | .finite negative magnitude =>
      if x.floor == x && x.abs < 1e15 then some (ratOfFloat x)
      else if negative then some (-magnitude.shortest.value)
      else some magnitude.shortest.value
    | _ => none
  | n => n.exactValue?

/-- Whether two numbers can be combined: an integer beyond the doubles meets no double. -/
def compatible (a b : Number) : Bool :=
  match a.int?, b.int? with
  | some _, some _ => true
  | _, _ => a.hasFloat && b.hasFloat

/-- An operation on two numbers, on integers where both are, else on doubles. -/
def lift (onInt : Int → Int → Int) (onFloat : Float → Float → Float) (a b : Number) : Number :=
  match a.int?, b.int? with
  | some m, some n => int (onInt m n)
  | _, _ => float (onFloat a.toFloat b.toFloat)

/-- The sum of two numbers. -/
def add : Number → Number → Number := lift (· + ·) (· + ·)

/-- The difference of two numbers. -/
def sub : Number → Number → Number := lift (· - ·) (· - ·)

/-- The product of two numbers. -/
def mul : Number → Number → Number := lift (· * ·) (· * ·)

/-- The number with the opposite sign. -/
def neg : Number → Number
  | int n => int (-n)
  | float x => float (-x)
  | flag b => int (if b then -1 else 0)
  | nan _ => float notANumber

/-- An exact comparison: of integers, of doubles, or of an integer with a double.

An integer is below the positive infinity, above the negative one, and not comparable with
not-a-number. -/
def compareWith (onRat : Rat → Rat → Bool) (onFloat : Float → Float → Bool) (a b : Number) : Bool :=
  match a, b with
  | float x, float y => onFloat x y
  | _, _ =>
    match a.exactValue?, b.exactValue? with
    | some p, some q => onRat p q
    | some _, none => onFloat 0.0 b.toFloat
    | none, some _ => onFloat a.toFloat 0.0
    | none, none => onFloat a.toFloat b.toFloat

/-- Whether a number is less than another. -/
def lt : Number → Number → Bool := compareWith (fun p q => p < q) (fun x y => x < y)

/-- Whether a number is at most another. -/
def le : Number → Number → Bool := compareWith (fun p q => p ≤ q) (fun x y => x ≤ y)

/-- Whether two numbers have the same value. -/
def eq : Number → Number → Bool := compareWith (fun p q => p = q) (fun x y => x == y)

/-- Whether two numbers are the same key: of the same value, or the very same not-a-number. -/
def same : Number → Number → Bool
  | nan left, nan right => left == right
  | left, right => left.eq right

end Number

end PatternCovering
