import PatternCovering.Binary

/-!
# Shortest decimals

The decimal with the fewest digits among those that read back as a given double, and among these
the nearest one. A decimal reads back when it lies in the interval of numbers that round to the
double; the ends of the interval belong to it exactly when the significand is even. For each number
of digits only the two neighbours of the value on the decimal grid need a test, and seventeen
digits always suffice.
-/

namespace PatternCovering

/-- The decimal `digits * 10 ^ exponent`. -/
structure Decimal where
  digits : Nat
  exponent : Int
  deriving Repr, DecidableEq

/-- The number of decimal digits of a natural number, one for zero. -/
def digitCount (n : Nat) : Nat := (Nat.toDigits 10 n).length

/-- A quotient of natural numbers times a power of ten, again as a quotient. -/
def scaleByTen (num den : Nat) (power : Int) : Nat × Nat :=
  if 0 ≤ power then (num * powTen power.toNat, den) else (num, den * powTen (-power).toNat)

/-- The value of a decimal. -/
def Decimal.value (decimal : Decimal) : Rat :=
  let (num, den) := scaleByTen decimal.digits 1 decimal.exponent
  mkRat num den

/-- The power of ten of the leading digit of `num / den`, both positive.

Below one, the digits of the reciprocal give the power, except at a power of ten itself. -/
def leadingPower (num den : Nat) : Int :=
  if num < den then
    let power : Int := 1 - digitCount (den / num)
    let (n, d) := scaleByTen num den (-power)
    if d ≤ n then power else power - 1
  else (digitCount (num / den) : Int) - 1

namespace Dyadic

/-- A dyadic magnitude as a quotient of natural numbers. -/
def quotient (d : Dyadic) : Nat × Nat :=
  if 0 ≤ d.exponent then (d.significand * powTwo d.exponent.toNat, 1)
  else (d.significand, powTwo (-d.exponent).toNat)

/-- The distance to the lower end of the interval of numbers that round to `d`, in quarters of its
last place: half a place, or a quarter where the next smaller double is half as far away. -/
def gapBelow (d : Dyadic) : Nat :=
  if d.significand = powTwo 52 ∧ -1074 < d.exponent then 1 else 2

/-- Whether the decimal `digits * 10 ^ exponent` rounds to the double of magnitude `d`. -/
def readsBack (d : Dyadic) (decimal : Decimal) : Bool :=
  let (num, den) := quotient ⟨1, d.exponent - 2⟩
  let (n, m) := scaleByTen decimal.digits 1 decimal.exponent
  let point := n * den
  let low := (4 * d.significand - d.gapBelow) * num * m
  let high := (4 * d.significand + 2) * num * m
  if d.significand % 2 = 0 then low ≤ point && point ≤ high else low < point && point < high

/-- The decimal nearest to `d` on the grid of step `10 ^ power` that reads back, if one does; of two
equally near ones the one with the even last digit. -/
def onGrid? (d : Dyadic) (power : Int) : Option Decimal :=
  let (num, den) := d.quotient
  let (n, m) := scaleByTen num den (-power)
  let below : Decimal := ⟨n / m, power⟩
  let above : Decimal := ⟨n / m + 1, power⟩
  match d.readsBack below, d.readsBack above with
  | true, true => some ⟨divHalfEven n m, power⟩
  | true, false => some below
  | false, true => some above
  | false, false => none

end Dyadic

/-- The decimal without the trailing zeros of its digits; `fuel` bounds their number. -/
def Decimal.trim : Nat → Decimal → Decimal
  | 0, decimal => decimal
  | fuel + 1, decimal =>
    if decimal.digits ≠ 0 ∧ decimal.digits % 10 = 0 then
      trim fuel ⟨decimal.digits / 10, decimal.exponent + 1⟩
    else decimal

/-- The shortest decimal that reads back as the double of the positive magnitude `d`. -/
def Dyadic.shortest (d : Dyadic) : Decimal :=
  let (num, den) := d.quotient
  let power := leadingPower num den
  let found := (List.range 17).findSome? fun places : Nat => d.onGrid? (power - places)
  (found.getD ⟨d.significand, 0⟩).trim 17

end PatternCovering
