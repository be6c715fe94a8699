import PatternCovering.LinearProgram.Estimate

/-!
# Scouting for integer points

A search for the best integer point in doubles, depth first. It starts from a tableau whose costs
are settled. Each part of the ranges is settled again; if a variable that has to be an integer is
not, the part above its value is looked at first, then the part below. A part is left when it
promises nothing better than the best point so far. As with every estimate, what is found has to be
confirmed.
-/

namespace PatternCovering

/-- What a search in doubles looks for: the variables that have to be integers, the objective, and
the step in which it changes between integer points, zero if there is none. -/
structure Scout where
  isInteger : Array Bool
  objective : FloatArray
  step : Float

namespace Scout

/-- How far from an integer a double may be to count as one. -/
def tolerance : Float := 1e-6

/-- The objective of an estimate. -/
def objectiveOf (scout : Scout) (estimate : Estimate) : (size : Nat) → Float → Float
  | 0, sum => sum
  | place + 1, sum =>
    scout.objectiveOf estimate place
      (sum + scout.objective.get! place * estimate.values.get! place)

/-- The distance of a double from the nearest integer. -/
def distance (value : Float) : Float := (value - value.round).abs

/-- Of the variables below a number that have to be integers, the one that is farthest from one. -/
def fractional? (scout : Scout) (estimate : Estimate) : (size : Nat) → Option Nat → Option Nat
  | 0, best => best
  | number + 1, best =>
    let far := distance (estimate.values.get! number)
    let known := (best.map fun other => distance (estimate.values.get! other)).getD tolerance
    scout.fractional? estimate number
      (if scout.isInteger.getD number false && known < far then some number else best)

/-- The least objective that an integer point can have if it is not below a bound. -/
def promise (scout : Scout) (bound : Float) : Float :=
  if scout.step == 0.0 then bound
  else (bound / scout.step - tolerance).ceil * scout.step

/-- A point that was found, with its objective. -/
structure Find where
  objective : Float
  values : FloatArray

/-- Whether a part with the given bound has nothing better than what was found. -/
def isSettled (scout : Scout) (best : Option Find) (bound : Float) : Bool :=
  best.any fun known => known.objective ≤ scout.promise bound + tolerance

/-- An estimate with a variable kept between two doubles. If it is free it is moved there. -/
def narrow (estimate : Estimate) (number : Nat) (low high : Float) : Estimate :=
  let narrowed := { estimate with
    lower := estimate.lower.set! number low, upper := estimate.upper.set! number high }
  match estimate.free.findIdx? (· == number) with
  | none => narrowed
  | some column =>
    let value := estimate.values.get! number
    let target := if value < low then low else if high < value then high else value
    narrowed.move column (target - value)

/-- The parts of an estimate above and below the value of a variable. -/
def halves (estimate : Estimate) (number : Nat) : List Estimate :=
  let value := estimate.values.get! number
  [narrow estimate number value.ceil (estimate.upper.get! number),
    narrow estimate number (estimate.lower.get! number) value.floor]

/-- Looks at parts one after the other, at most `parts` of them, and gives the best point if all of
them could be looked at. Each part is settled in at most `fuel` steps. -/
def search (scout : Scout) (fuel : Nat) :
    (parts : Nat) → List Estimate → Option Find → Option (Option Find)
  | _, [], best => some best
  | 0, _ :: _, _ => none
  | parts + 1, part :: rest, best =>
    match part.settle fuel with
    | .unfinished => none
    | .stuck => scout.search fuel parts rest best
    | .settled settled =>
      let objective := scout.objectiveOf settled scout.objective.size 0.0
      if scout.isSettled best objective then scout.search fuel parts rest best
      else
        match scout.fractional? settled scout.isInteger.size none with
        | none => scout.search fuel parts rest (some ⟨objective, settled.values⟩)
        | some number => scout.search fuel parts (halves settled number ++ rest) best

end Scout

end PatternCovering
