/-!
# Equations in integers

Whether a system of linear equations with integer coefficients has a solution in integers. The
system is given by its columns, one for each unknown, and by the values on the right-hand side. The
unknowns of the first equation are combined as in the greatest common divisor of its coefficients,
until a single one is left; then its value is known, if there is one, and the other equations
remain.
-/

namespace PatternCovering.Lattice

/-- The coefficient of a column in the first equation. -/
def leading (column : List Int) : Int := column.headD 0

/-- A column less a multiple of another one. -/
def subtract (column : List Int) (factor : Int) (other : List Int) : List Int :=
  column.zipWith (fun entry part => entry - factor * part) other

/-- Two columns combined so that the second one is absent from the first equation. -/
def combine (pivot column : List Int) : List Int × List Int :=
  if h : leading column = 0 then (pivot, column)
  else
    let rest := subtract pivot.tail (leading pivot / leading column) column.tail
    have : (leading pivot % leading column).natAbs < (leading column).natAbs := by
      have := Int.emod_nonneg (leading pivot) h
      have := Int.emod_lt (leading pivot) h
      omega
    combine column (leading pivot % leading column :: rest)
termination_by (leading column).natAbs

/-- All columns combined so that only the first one is left in the first equation. -/
def combineAll (pivot : List Int) (columns : List (List Int)) : List Int × List (List Int) :=
  columns.foldl (fun (pivot, cleared) column =>
    let (divisor, other) := combine pivot column
    (divisor, other :: cleared)) (pivot, [])

/-- Whether a system of equations has a solution in integers. -/
def isSolvable (values : List Int) (columns : List (List Int)) : Bool :=
  match values, columns with
  | [], _ => true
  | value :: rest, [] => value = 0 && isSolvable rest []
  | value :: rest, first :: others =>
    let (pivot, cleared) := combineAll first others
    if leading pivot = 0 then value = 0 && isSolvable rest ((pivot :: cleared).map List.tail)
    else
      value % leading pivot = 0 &&
        isSolvable (subtract rest (value / leading pivot) pivot.tail) (cleared.map List.tail)
termination_by values.length
decreasing_by
  · simp
  · simp
  · simp only [subtract, List.length_zipWith, List.length_cons]
    omega

end PatternCovering.Lattice
