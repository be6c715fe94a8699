import PatternCovering.Model

/-!
# Engines

What is asked of a solver of linear models: to take up variables, rows and coefficients, to solve,
and to give the values of an optimal solution. Rows and columns are handed over as they were given;
what an engine makes of a position that is no integer is its own affair. An engine that refuses a
variable has not changed; one that fails elsewhere may nevertheless have changed its state.
-/

namespace PatternCovering

/-- A solver whose state is of type `ε`. -/
structure Engine (ε α : Type) where
  create : ε → Sense → ε × Except Fault Unit
  addVariable : ε → Variable α → Except Fault ε
  addRow : ε → Row α → List (Datum × α) → ε × Except Fault Unit
  addCoefficient : ε → (row column : Datum) → α → ε × Except Fault Unit
  setInteger : ε → (column : Datum) → Datum → Except Fault ε
  solve : ε → ε × Except Fault Status
  /-- The objective, none if the engine has no value for it. -/
  objective : ε → Except Fault (Option α)
  dual : ε → (row : Datum) → Except Fault α
  primal : ε → (column : Datum) → Except Fault α

end PatternCovering
