import PatternCovering.Datum.Arithmetic
import PatternCovering.Number.Quotient

/-!
# Quantities

Costs, duals and resources are combined and compared by the same algorithms whether they are plain
data as given, with the rounding of doubles and the faults of odd data, or exact rationals.
`Quantity` is what the algorithms use of either. It promises no laws: what holds for every quantity
holds for numbers with not-a-number and rounding as well, and what needs arithmetic is stated for
rationals.

An operation whose name ends in a question mark may fail. Where its arguments are known to be real
numbers it cannot, and the operation without the question mark is used.
-/

namespace PatternCovering

/-- Values that the algorithms can add, compare and report. -/
class Quantity (α : Type) where
  /-- An integer as a quantity. -/
  ofInt : Int → α
  /-- The quantity `digits / 10 ^ places`. -/
  ofDecimal : (digits places : Nat) → α
  /-- The real number zero. -/
  zero : α
  /-- The real number one. -/
  one : α
  add? : α → α → Except Fault α
  sub? : α → α → Except Fault α
  mul? : α → α → Except Fault α
  neg? : α → Except Fault α
  lt? : α → α → Except Fault Bool
  le? : α → α → Except Fault Bool
  eq : α → α → Bool
  /-- Whether two quantities are the same key. -/
  same : α → α → Bool
  /-- Refuses a quantity that cannot be a key. -/
  requireKey : α → Except Fault Unit
  /-- The quantity as a real number, no longer as an integer. -/
  measure? : α → Except Fault α
  /-- The real number that the quantity is or writes. -/
  real? : α → Except Fault α
  /-- The nearest integer, a tie going to the even one. -/
  round? : α → Except Fault Int
  /-- The quotient of natural numbers as a real number. -/
  ratio? : (num den : Nat) → Except Fault α
  /-- The quantity as plain data. -/
  report : α → Datum

namespace Quantity

variable {α : Type} [Quantity α]

/-- The sum of two real numbers. -/
def add (a b : α) : α :=
  match add? a b with
  | .ok sum => sum
  | .error _ => a

/-- The difference of two real numbers. -/
def sub (a b : α) : α :=
  match sub? a b with
  | .ok difference => difference
  | .error _ => a

/-- The product of two real numbers. -/
def mul (a b : α) : α :=
  match mul? a b with
  | .ok product => product
  | .error _ => a

/-- Whether a real number is less than another. -/
def lt (a b : α) : Bool :=
  match lt? a b with
  | .ok answer => answer
  | .error _ => false

/-- Whether a real number is at most another. -/
def le (a b : α) : Bool :=
  match le? a b with
  | .ok answer => answer
  | .error _ => false

/-- The quantity without its sign. -/
def abs? (a : α) : Except Fault α := do
  let opposite ← neg? a
  return if lt a zero then opposite else a

/-- The sum of the products of two lists from left to right, as far as the shorter one goes. Each
product is added before the next one is formed. -/
def dot? (left right : List α) : Except Fault α :=
  (left.zip right).foldlM (fun sum (a, b) => do add? sum (← mul? a b)) (ofInt 0)

end Quantity

instance : Quantity Datum where
  ofInt := Datum.int
  ofDecimal digits places := .float (Decimal.nearestOf digits (-places))
  zero := .float 0.0
  one := .float 1.0
  add? := Datum.add
  sub? := Datum.sub
  mul? := Datum.mul
  neg? := Datum.neg
  lt? := Datum.lt
  le? := Datum.le
  eq := Datum.eq
  same := Datum.same
  requireKey := Datum.requireKey
  measure? := Datum.measure
  real? given := do
    return .float (← given.real)
  round? := Datum.round
  ratio? num den := do
    return .number (← Number.ratio num den)
  report := id

instance : Quantity Rat where
  ofInt n := n
  ofDecimal digits places := mkRat digits (powTen places)
  zero := 0
  one := 1
  add? p q := .ok (p + q)
  sub? p q := .ok (p - q)
  mul? p q := .ok (p * q)
  neg? p := .ok (-p)
  lt? p q := .ok (p < q)
  le? p q := .ok (p ≤ q)
  eq p q := p = q
  same p q := p = q
  requireKey _ := .ok ()
  measure? q := .ok q
  real? q := .ok q
  round? q := .ok (roundHalfEven q)
  ratio? num den := .ok (mkRat num den)
  report q := .float (floatOfRat q)

end PatternCovering
