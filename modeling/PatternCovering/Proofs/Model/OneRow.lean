import PatternCovering.Proofs.Model.Optimum
import Mathlib.Algebra.BigOperators.Ring.List
import Mathlib.Algebra.Order.BigOperators.Group.List
import Mathlib.Data.List.MinMax

/-!
# Solving models of one row exactly

A model with one row that asks for an amount, and with variables from zero on at a cost of one, is
solved by the variable with the greatest coefficient alone. An engine that solves these models and
finds all others infeasible records its model and solves it exactly: it is a simple instance of what
is asked of engines.
-/

namespace PatternCovering

namespace Model

variable {model : Model Rat} {demand : Rat}

/-- The place of the variable with the greatest coefficient in the first row. -/
def bestPlace? (model : Model Rat) : Option Nat :=
  (List.range model.vars.length).argmax (model.coefficient 0)

/-- Whether a model is to be minimized, has one row that asks for an amount, and its variables are
from zero on at a cost of one. -/
def IsOneRow (model : Model Rat) (demand : Rat) : Bool :=
  model.sense == .minimize &&
    model.rows.map (fun row => (row.lower, row.upper)) == [(some demand, none)] &&
    model.vars.all fun added =>
      added.lower == some 0 && added.upper == none && added.objective == 1

/-- What it means to be a model of one row. -/
theorem of_isOneRow (h : model.IsOneRow demand = true) :
    model.sense = .minimize ∧ model.rows.map (fun row => (row.lower, row.upper)) =
      [(some demand, none)] ∧
    ∀ added ∈ model.vars, added.lower = some 0 ∧ added.upper = none ∧ added.objective = 1 := by
  simpa [IsOneRow, and_assoc] using h

/-- The objective of a model of one row is the sum of its point. -/
theorem valueAt_oneRow (h : model.IsOneRow demand = true) {point : List Rat}
    (hlength : point.length = model.vars.length) : model.valueAt point = point.sum := by
  obtain ⟨-, -, hvars⟩ := of_isOneRow h
  rw [valueAt]
  congr 1
  apply List.ext_getElem
  · simp [hlength]
  · intro place hleft hright
    have hplace : place < model.vars.length := hlength ▸ hright
    simp [(hvars _ (List.getElem_mem hplace)).2.2]

/-- Feasible points of a model of one row are not negative and meet its demand. -/
theorem isFeasible_oneRow (h : model.IsOneRow demand = true) {point : List Rat} :
    model.IsFeasible point ↔ point.length = model.vars.length ∧ (∀ value ∈ point, 0 ≤ value) ∧
      demand ≤ model.rowAt point 0 := by
  obtain ⟨-, hrows, hvars⟩ := of_isOneRow h
  obtain ⟨row, hrow, hbounds⟩ := List.map_eq_singleton_iff.mp hrows
  obtain ⟨hlower, hupper⟩ := Prod.mk.inj hbounds
  have hadmits : ∀ added ∈ model.vars, ∀ value,
      Window.Admits ⟨added.lower, added.upper, added.name⟩ value ↔ 0 ≤ value := by
    intro added hadded value
    simp [Window.Admits, hvars added hadded]
  constructor
  · rintro ⟨hpoint, hall⟩
    have hlength := hpoint.length_eq
    refine ⟨hlength.symm, fun value hvalue => ?_, ?_⟩
    · obtain ⟨place, hplace, rfl⟩ := List.getElem_of_mem hvalue
      exact (hadmits _ (List.getElem_mem _) _).mp (hpoint.get (hlength ▸ hplace) hplace)
    · exact (hall 0 row (by rw [hrow]; rfl)).1 demand hlower
  · rintro ⟨hlength, hnonneg, hmeets⟩
    refine ⟨List.forall₂_iff_get.mpr ⟨hlength.symm, fun place hleft hright => ?_⟩,
      fun place known hknown => ?_⟩
    · exact (hadmits _ (List.getElem_mem _) _).mpr (hnonneg _ (List.getElem_mem _))
    · rw [hrow, List.getElem?_singleton] at hknown
      split at hknown
      · next hzero =>
        obtain rfl := Option.some.inj hknown
        simp [Window.Admits, hlower, hupper, hzero, hmeets]
      · cases hknown

/-- The best variable alone solves a model of one row. -/
theorem isOptimum_oneRow (h : model.IsOneRow demand = true) (hdemand : 0 ≤ demand) {best : Nat}
    (hbest : model.bestPlace? = some best) (hpos : 0 < model.coefficient 0 best) :
    model.IsOptimum (demand / model.coefficient 0 best) := by
  obtain ⟨hsense, -, -⟩ := of_isOneRow h
  have hplace : best < model.vars.length := List.mem_range.mp (List.argmax_mem hbest)
  rw [IsOptimum, hsense]
  constructor
  · -- all of the demand is served by the best variable
    let point := (List.replicate model.vars.length (0 : Rat)).set best
      (demand / model.coefficient 0 best)
    have hlength : point.length = model.vars.length := by simp [point]
    have hrow : model.rowAt point 0 = demand := by
      have hterms : point.mapIdx (fun column value => model.coefficient 0 column * value) =
          (List.replicate model.vars.length (0 : Rat)).set best demand := by
        apply List.ext_getElem
        · simp [point]
        · intro place hleft hright
          by_cases heq : best = place
          · subst heq
            simp [point, mul_div_cancel₀ _ (ne_of_gt hpos)]
          · simp [point, heq]
      rw [rowAt, hterms, List.sum_set]
      simp [hplace]
    refine ⟨point, (isFeasible_oneRow h).mpr ⟨hlength, fun value hvalue => ?_, hrow.ge⟩, ?_⟩
    · rcases List.mem_or_eq_of_mem_set hvalue with hzero | rfl
      · rw [(List.mem_replicate.mp hzero).2]
      · positivity
    · rw [valueAt_oneRow h hlength, List.sum_set]
      simp [hplace]
  · -- no variable serves more of the demand at its cost
    rintro value ⟨point, hfeasible, rfl⟩
    obtain ⟨hlength, hnonneg, hmeets⟩ := (isFeasible_oneRow h).mp hfeasible
    have hbound : model.rowAt point 0 ≤ model.coefficient 0 best * point.sum := by
      have hsum : model.coefficient 0 best * point.sum =
          (point.map fun value => model.coefficient 0 best * value).sum := by
        rw [List.sum_map_mul_left, List.map_id']
      rw [rowAt, hsum]
      refine List.Forall₂.sum_le_sum (List.forall₂_iff_get.mpr ⟨by simp, ?_⟩)
      intro place hleft hright
      have hpoint : place < point.length := by simpa using hright
      have hcoefficient : model.coefficient 0 place ≤ model.coefficient 0 best :=
        List.le_of_mem_argmax (List.mem_range.mpr (hlength ▸ hpoint)) hbest
      simpa using mul_le_mul_of_nonneg_right hcoefficient (hnonneg _ (List.getElem_mem hpoint))
    rw [valueAt_oneRow h hlength, div_le_iff₀' hpos]
    exact hmeets.trans hbound

end Model

/-- An engine whose state is its model, and which solves models of one row. -/
def rowEngine (demand : Nat) : Engine (Model Rat) Rat where
  create _ sense := ({ sense }, .ok ())
  addVariable model added := .ok (model.addVariable added)
  addRow model row terms := (model.addRow row terms, .ok ())
  addCoefficient model row column amount := (model.addCoefficient row column amount, .ok ())
  setInteger model _ _ := .ok model
  solve model := (model, .ok (
    if model.IsOneRow demand && model.bestPlace?.any (0 < model.coefficient 0 ·) then .optimal
    else .infeasible))
  objective model := .ok (model.bestPlace?.map fun best => (demand : Rat) / model.coefficient 0 best)
  dual model _ := .ok ((model.bestPlace?.map fun best => 1 / model.coefficient 0 best).getD 0)
  primal model column := .ok (match model.bestPlace? with
    | some best => if column.same (.int best) then demand / model.coefficient 0 best else 0
    | none => 0)

/-- The engine for one row records its model. -/
theorem records_rowEngine (demand : Nat) : (rowEngine demand).Records id where
  create _ _ _ h := (Prod.mk.inj h).1.symm
  addVariable _ _ _ h := (Except.ok.inj h).symm
  addRow _ _ _ _ h := (Prod.mk.inj h).1.symm
  addCoefficient _ _ _ _ _ h := (Prod.mk.inj h).1.symm
  solve _ _ h := (Prod.mk.inj h).1.symm

/-- The engine for one row solves exactly. -/
theorem solvesExactly_rowEngine (demand : Nat) : (rowEngine demand).SolvesExactly id := by
  intro model after objective hsolve _ hobjective
  obtain ⟨rfl, hstatus⟩ := Prod.mk.inj hsolve
  have hstatus := Except.ok.inj hstatus
  split at hstatus
  · next hcheck =>
    rw [Bool.and_eq_true, Option.any_eq_true] at hcheck
    obtain ⟨hrow, best, hbest, hpos⟩ := hcheck
    have hpos : 0 < model.coefficient 0 best := by simpa using hpos
    refine ⟨_, Model.isOptimum_oneRow hrow (Nat.cast_nonneg demand) hbest hpos, ?_⟩
    rw [← Except.ok.inj hobjective, hbest]
    rfl
  · cases hstatus

end PatternCovering
