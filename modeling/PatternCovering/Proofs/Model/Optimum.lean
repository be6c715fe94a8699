import PatternCovering.Engine
import PatternCovering.Proofs.Cover.Books
import PatternCovering.Proofs.Exact
import Mathlib.Algebra.BigOperators.Group.List.Basic
import Mathlib.Order.Bounds.Basic

/-!
# Optima of recorded models

A point of a model gives each variable a value. It is feasible when every variable and every row
stays between its bounds, and an optimum of a model without integer variables is the best value of
its objective over all feasible points. An engine records a model when what it was told can be read
off its states; it solves exactly when the objective of every optimal solve is the optimum of the
model that is recorded then. Nothing is said about how it solves, nor about solves that are not
optimal.
-/

namespace PatternCovering

namespace Model

/-- The coefficient of the variable at a place in the row at a place, zero if none was given. -/
def coefficient (model : Model Rat) (row column : Nat) : Rat :=
  (model.entry? (.int row) (.int column)).getD 0

/-- The objective at a point. -/
def valueAt (model : Model Rat) (point : List Rat) : Rat :=
  (List.zipWith (fun added value => added.objective * value) model.vars point).sum

/-- The linear expression of a row at a point. -/
def rowAt (model : Model Rat) (point : List Rat) (row : Nat) : Rat :=
  (point.mapIdx fun column value => model.coefficient row column * value).sum

/-- Whether every variable and every row is between its bounds at a point. -/
structure IsFeasible (model : Model Rat) (point : List Rat) : Prop where
  vars : List.Forall₂ (fun added value => Window.Admits ⟨added.lower, added.upper, added.name⟩ value)
    model.vars point
  rows : ∀ (place : Nat) (row : Row Rat), model.rows[place]? = some row →
    Window.Admits ⟨row.lower, row.upper, row.name⟩ (model.rowAt point place)

/-- The values of the objective at the feasible points. -/
def attained (model : Model Rat) : Set Rat :=
  {value | ∃ point, model.IsFeasible point ∧ model.valueAt point = value}

/-- Whether a value is the best that the objective attains. -/
def IsOptimum (model : Model Rat) (value : Rat) : Prop :=
  match model.sense with
  | .minimize => IsLeast model.attained value
  | .maximize => IsGreatest model.attained value

/-- Whether no variable has to be an integer. -/
def IsContinuous (model : Model Rat) : Prop :=
  ∀ added ∈ model.vars, added.isInteger.truthy = false

/-- Whether all entries stand at rows and columns that are given by integers. -/
def Placed (model : Model Rat) : Prop :=
  ∀ entry ∈ model.entries, ∃ row column : Int, entry.row = .int row ∧ entry.column = .int column

variable {model : Model Rat}

/-- An entry at integers stands at a row and a column exactly if these are its own. -/
theorem isAt_int {entry : Entry Rat} {row column : Int} (hrow : entry.row = .int row)
    (hcolumn : entry.column = .int column) (place other : Int) :
    entry.isAt (.int place) (.int other) = decide (row = place ∧ column = other) := by
  simp [Entry.isAt, hrow, hcolumn]

/-- Adding to an entry changes the value there and nowhere else. -/
theorem valueAt?_accumulate {entries : List (Entry Rat)}
    (hplaced : ∀ entry ∈ entries, ∃ row column : Int,
      entry.row = .int row ∧ entry.column = .int column)
    (row column place other : Int) (amount : Rat) :
    (valueAt? (.int place) (.int other) (accumulate (.int row) (.int column) amount entries)).getD 0 =
      (valueAt? (.int place) (.int other) entries).getD 0 +
        if row = place ∧ column = other then amount else 0 := by
  induction entries with
  | nil =>
    by_cases hat : row = place ∧ column = other
    · simp [valueAt?, accumulate, Entry.isAt, hat]
    · have hnone : (decide (row = place) && decide (column = other)) = false := by
        simpa using hat
      simp [valueAt?, accumulate, Entry.isAt, hat, hnone]
  | cons entry rest ih =>
    obtain ⟨⟨first, second, hfirst, hsecond⟩, hrest⟩ := List.forall_mem_cons.mp hplaced
    have hstep := ih hrest
    have hhere := isAt_int hfirst hsecond
    simp only [valueAt?] at hstep ⊢
    by_cases hmatch : first = row ∧ second = column
    · -- the amount goes to this entry
      obtain ⟨rfl, rfl⟩ := hmatch
      by_cases hlook : first = place ∧ second = other
      · obtain ⟨rfl, rfl⟩ := hlook
        simp [accumulate, Entry.isAt, hfirst, hsecond]
      · have hskip : ∀ value : Rat, Entry.isAt { entry with value } (.int place) (.int other) =
            false := fun value => (hhere place other).trans (decide_eq_false hlook)
        rw [accumulate, if_pos (by simp [hhere]), List.find?_cons_of_neg (by simp [hskip]),
          List.find?_cons_of_neg (by simp [hhere, hlook]), if_neg hlook, add_zero]
    · have hpass : entry.isAt (.int row) (.int column) = false := by simp [hhere, hmatch]
      by_cases hlook : first = place ∧ second = other
      · obtain ⟨rfl, rfl⟩ := hlook
        have hapart : ¬ (row = first ∧ column = second) := fun h => hmatch ⟨h.1.symm, h.2.symm⟩
        simp [accumulate, hpass, hhere, hapart]
      · have hskip : entry.isAt (.int place) (.int other) = false := by simp [hhere, hlook]
        simpa [accumulate, hpass, hskip] using hstep

/-- Adding to an entry keeps the entries at integers. -/
theorem placed_accumulate {entries : List (Entry Rat)}
    (hplaced : ∀ entry ∈ entries, ∃ row column : Int,
      entry.row = .int row ∧ entry.column = .int column) (row column : Int) (amount : Rat) :
    ∀ entry ∈ accumulate (.int row) (.int column) amount entries, ∃ row column : Int,
      entry.row = .int row ∧ entry.column = .int column := by
  induction entries with
  | nil =>
    intro entry hentry
    rw [List.mem_singleton.mp hentry]
    exact ⟨row, column, rfl, rfl⟩
  | cons first rest ih =>
    obtain ⟨hfirst, hrest⟩ := List.forall_mem_cons.mp hplaced
    rw [accumulate]
    split
    · exact List.forall_mem_cons.mpr ⟨hfirst, hrest⟩
    · exact List.forall_mem_cons.mpr ⟨hfirst, ih hrest⟩

/-- A coefficient that is added counts in its place. -/
theorem Placed.coefficient_addCoefficient (h : model.Placed) (row column place other : Nat)
    (amount : Rat) :
    (model.addCoefficient (.int row) (.int column) amount).coefficient place other =
      model.coefficient place other + if row = place ∧ column = other then amount else 0 := by
  have hsame := valueAt?_accumulate h row column place other amount
  simp only [Int.natCast_inj] at hsame
  exact hsame

/-- A coefficient that is added at integers keeps the entries there. -/
theorem Placed.addCoefficient (h : model.Placed) (row column : Nat) (amount : Rat) :
    (model.addCoefficient (.int row) (.int column) amount).Placed :=
  placed_accumulate h row column amount

end Model

namespace Engine

variable {ε : Type}

/-- What can be read off the states of an engine as the model that it was told: each operation that
succeeds acts on it, and an optimal solve leaves it as it is. -/
structure Records (engine : Engine ε Rat) (model : ε → Model Rat) : Prop where
  create : ∀ state sense after, engine.create state sense = (after, .ok ()) →
    model after = { sense }
  addVariable : ∀ state added after, engine.addVariable state added = .ok after →
    model after = (model state).addVariable added
  addRow : ∀ state row terms after, engine.addRow state row terms = (after, .ok ()) →
    model after = (model state).addRow row terms
  addCoefficient : ∀ state row column amount after,
    engine.addCoefficient state row column amount = (after, .ok ()) →
      model after = (model state).addCoefficient row column amount
  solve : ∀ state after, engine.solve state = (after, .ok .optimal) → model after = model state

/-- Whether the objective of every optimal solve of a model without integer variables is attained at
a feasible point of the model. -/
def Attains (engine : Engine ε Rat) (model : ε → Model Rat) : Prop :=
  ∀ state after objective, engine.solve state = (after, .ok .optimal) →
    (model state).IsContinuous → engine.objective after = .ok objective →
      ∃ value ∈ (model state).attained, objective = some value

/-- Whether the objective of every optimal solve of a model without integer variables is its
optimum. -/
def SolvesExactly (engine : Engine ε Rat) (model : ε → Model Rat) : Prop :=
  ∀ state after objective, engine.solve state = (after, .ok .optimal) →
    (model state).IsContinuous → engine.objective after = .ok objective →
      ∃ value, (model state).IsOptimum value ∧ objective = some value

/-- An engine that solves exactly attains its objectives. -/
theorem SolvesExactly.attains {engine : Engine ε Rat} {model : ε → Model Rat}
    (h : engine.SolvesExactly model) : engine.Attains model := by
  intro state after objective hsolve hcontinuous hobjective
  obtain ⟨value, hoptimum, rfl⟩ := h state after objective hsolve hcontinuous hobjective
  rw [Model.IsOptimum] at hoptimum
  split at hoptimum
  · exact ⟨value, hoptimum.1, rfl⟩
  · exact ⟨value, hoptimum.1, rfl⟩

end Engine

end PatternCovering
