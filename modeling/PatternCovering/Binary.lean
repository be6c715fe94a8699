import PatternCovering.Total

/-!
# Exact values of double-precision numbers

A finite double is `± significand * 2 ^ exponent` with a significand below `2 ^ 53`. This module
reads these parts off the bits of a double, and goes the other way: the double nearest to a
quotient of natural numbers, a tie going to the even significand. Both directions are integer
arithmetic, so that everything built on them (decimal text, comparisons with integers, rounding)
is exact.
-/

namespace PatternCovering

/-- The magnitude of a finite double, `significand * 2 ^ exponent`. -/
structure Dyadic where
  significand : Nat
  exponent : Int
  deriving Repr, DecidableEq

/-- What the bits of a double stand for. -/
inductive Binary where
  | nan
  | infinite (negative : Bool)
  | finite (negative : Bool) (magnitude : Dyadic)
  deriving Repr, DecidableEq

namespace Binary

/-- The word at which the exponent field is all ones: the positive infinity. -/
def infinityWord : Nat := 2047 * powTwo 52

/-- The parts of the double with the given 64-bit word. -/
def ofWord (word : Nat) : Binary :=
  let negative := decide (powTwo 63 ≤ word)
  let fraction : Nat := word % powTwo 52
  let field : Nat := word / powTwo 52 % powTwo 11
  if field = 2047 then
    if fraction = 0 then .infinite negative else .nan
  else if field = 0 then
    .finite negative ⟨fraction, -1074⟩
  else
    .finite negative ⟨powTwo 52 + fraction, (field : Int) - 1075⟩

/-- The parts of a double. -/
def ofFloat (x : Float) : Binary := ofWord x.toBits.toNat

end Binary

/-- The quotient `num / den` rounded to the nearest natural number, a tie going to the even one. -/
def divHalfEven (num den : Nat) : Nat :=
  let quotient := num / den
  let twice := 2 * (num % den)
  if twice < den then quotient
  else if den < twice then quotient + 1
  else if quotient % 2 = 0 then quotient else quotient + 1

/-- The power of two by which `num / den` is scaled to a 53-bit significand, never below the
least exponent of a double. -/
def scaleOf (num den : Nat) : Int :=
  let guess : Int := (num.log2 : Int) - den.log2 - 52
  let short :=
    if 0 ≤ guess then decide (num < powTwo 52 * den * powTwo guess.toNat)
    else decide (num * powTwo (-guess).toNat < powTwo 52 * den)
  max (if short then guess - 1 else guess) (-1074)

/-- The word of the double nearest to `num / den`, the positive infinity when it is out of range.

A significand that rounds up to `2 ^ 53` carries into the exponent field by itself. -/
def nearestWord (num den : Nat) : Nat :=
  if num = 0 then 0
  else
    let scale := scaleOf num den
    let significand :=
      if 0 ≤ scale then divHalfEven num (den * powTwo scale.toNat)
      else divHalfEven (num * powTwo (-scale).toNat) den
    min ((scale + 1074).toNat * powTwo 52 + significand) Binary.infinityWord

/-- The double nearest to `num / den`. -/
def nearestFloat (num den : Nat) : Float :=
  Float.ofBits (UInt64.ofNat (nearestWord num den))

/-- The double nearest to an integer. -/
def floatOfInt (n : Int) : Float :=
  if n < 0 then -(nearestFloat n.natAbs 1) else nearestFloat n.natAbs 1

/-- Whether the double nearest to an integer is finite. -/
def intHasFloat (n : Int) : Bool :=
  decide (nearestWord n.natAbs 1 < Binary.infinityWord)

/-- The double nearest to a rational number. -/
def floatOfRat (q : Rat) : Float :=
  if q < 0 then -(nearestFloat q.num.natAbs q.den) else nearestFloat q.num.natAbs q.den

/-- The exact value of a dyadic magnitude. -/
def Dyadic.toRat (d : Dyadic) : Rat :=
  if 0 ≤ d.exponent then ((d.significand * powTwo d.exponent.toNat : Nat) : Rat)
  else mkRat d.significand (powTwo (-d.exponent).toNat)

/-- The exact value of a double, zero when it is infinite or not a number. -/
def ratOfFloat (x : Float) : Rat :=
  match Binary.ofFloat x with
  | .finite negative d => if negative then -d.toRat else d.toRat
  | _ => 0

/-- A rational number rounded to the nearest integer, a tie going to the even one. -/
def roundHalfEven (q : Rat) : Int :=
  let magnitude : Int := divHalfEven q.num.natAbs q.den
  if q < 0 then -magnitude else magnitude

/-- A rational number rounded toward zero. -/
def truncate (q : Rat) : Int := Int.tdiv q.num q.den

end PatternCovering
