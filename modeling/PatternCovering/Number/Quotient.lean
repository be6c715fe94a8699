import PatternCovering.Datum.Conversion

/-!
# Quotients

Two quotients of numbers: that of natural numbers as the nearest double, and that of a number by a
positive integer, rounded down. The second one stays an integer for an integer.
-/

namespace PatternCovering

namespace Number

/-- The quotient of natural numbers as the nearest double. -/
def ratio (num den : Nat) : Except Fault Number :=
  if nearestWord num den < Binary.infinityWord then .ok (float (nearestFloat num den))
  else .error .quotientTooLarge

/-- The remainder of two finite doubles with the sign of the first. -/
def remainder (x y : Float) : Float :=
  let p := ratOfFloat x
  let q := ratOfFloat y
  let exact := p - q * (truncate (p / q) : Rat)
  if exact = 0 then (if x < 0.0 then -0.0 else 0.0) else floatOfRat exact

/-- The quotient of a double by a positive double, rounded down.

The remainder is taken off first, so that the division is nearly exact; a zero has the sign of the
quotient, and a quotient that is not a number stays so. -/
def floorDivFloat (x y : Float) : Float :=
  match Binary.ofFloat x with
  | .finite _ _ =>
    let rest := remainder x y
    let quotient := (x - rest) / y
    let lowered := if rest < 0.0 then quotient - 1.0 else quotient
    if lowered == 0.0 then 0.0 * (x / y)
    else
      let down := lowered.floor
      if 0.5 < lowered - down then down + 1.0 else down
  | _ => notANumber

/-- The quotient by a positive integer, rounded down. -/
def floorDiv (n : Number) (den : Nat) : Except Fault Number :=
  match n.int? with
  | some k => .ok (int (k.fdiv den))
  | none => do
    let y ← float? (int den)
    return float (floorDivFloat n.toFloat y)

end Number

/-- A number divided by a positive integer, rounded down. -/
def Datum.floorDiv (given : Datum) (den : Nat) : Except Fault Datum := do
  return .number (← (← given.toNumber).floorDiv den)

end PatternCovering
