import PatternCovering.Column
import PatternCovering.Offer
import PatternCovering.Window
import PatternCovering.Label
import PatternCovering.Proofs.Failure
import Mathlib.Algebra.BigOperators.Group.List.Basic
import Mathlib.Algebra.Order.Ring.Rat
import Mathlib.Data.List.Forall2
import Mathlib.Tactic.Linarith
import Mathlib.Tactic.Positivity
import Mathlib.Tactic.Ring

/-!
# Exact arithmetic

On rationals no operation fails, and each one is the operation of the field: resources are added
entry by entry, a window admits what lies between its bounds, a label dominates another when it is at
most as large in its cost and in every resource, and the value of a pattern is a sum of products.
-/

namespace PatternCovering

namespace Quantity

@[simp]
theorem zero_rat : (zero : Rat) = 0 := rfl

@[simp]
theorem ofInt_rat (n : Int) : (ofInt n : Rat) = n := rfl

@[simp]
theorem add?_rat (p q : Rat) : add? p q = .ok (p + q) := rfl

@[simp]
theorem sub?_rat (p q : Rat) : sub? p q = .ok (p - q) := rfl

@[simp]
theorem mul?_rat (p q : Rat) : mul? p q = .ok (p * q) := rfl

@[simp]
theorem neg?_rat (p : Rat) : neg? p = .ok (-p) := rfl

@[simp]
theorem lt?_rat (p q : Rat) : lt? p q = .ok (decide (p < q)) := rfl

@[simp]
theorem le?_rat (p q : Rat) : le? p q = .ok (decide (p ≤ q)) := rfl

@[simp]
theorem real?_rat (p : Rat) : real? p = .ok p := rfl

@[simp]
theorem eq_rat (p q : Rat) : eq p q = decide (p = q) := rfl

@[simp]
theorem add_rat (p q : Rat) : add p q = p + q := rfl

@[simp]
theorem lt_rat (p q : Rat) : lt p q = decide (p < q) := rfl

@[simp]
theorem le_rat (p q : Rat) : le p q = decide (p ≤ q) := rfl

/-- The sum of the products of two lists of rationals. -/
theorem dot?_rat (left right : List Rat) :
    dot? left right = .ok (List.zipWith (· * ·) left right).sum := by
  have hfold : ∀ (pairs : List (Rat × Rat)) (sum : Rat),
      pairs.foldlM (fun sum pair => do add? sum (← mul? pair.1 pair.2)) sum =
        (Except.ok (sum + (pairs.map fun pair => pair.1 * pair.2).sum) : Except Fault Rat) := by
    intro pairs
    induction pairs with
    | nil => simp [pure, Except.pure]
    | cons pair rest ih =>
      intro sum
      obtain ⟨a, b⟩ := pair
      rw [List.foldlM_cons]
      change List.foldlM _ (sum + a * b) rest = _
      rw [ih, List.map_cons, List.sum_cons, add_assoc]
  change (left.zip right).foldlM (fun sum pair => do add? sum (← mul? pair.1 pair.2)) (ofInt 0) = _
  rw [hfold, ofInt_rat, Int.cast_zero, zero_add]
  congr 2
  rw [List.zip_eq_zipWith, List.map_zipWith]

end Quantity

/-- The duals are read as they are, if there is one for each item. -/
theorem readDuals_eq_ok {numItems : Int} {duals : List Rat} (h : (duals.length : Int) = numItems) :
    readDuals numItems duals = .ok duals := by
  rw [readDuals, if_pos (by simp [Position.eq, Position.ofNat, Position.ofInt, h]),
    mapM_eq_ok id fun q _ => Quantity.real?_rat q, List.map_id]

/-- An offer that does not improve on a tolerance is not below it. -/
theorem Offer.neg_le_of_not_improving {offer : Offer Rat} {tolerance : Rat}
    (h : offer.isImproving tolerance = .ok false) : -tolerance ≤ offer.reducedCost := by
  simpa [isImproving, bind, Except.bind] using h

/-- Duals that are read are one for each item. -/
theorem readDuals_rat {numItems : Int} {duals read : List Rat}
    (h : readDuals numItems duals = .ok read) : (duals.length : Int) = numItems ∧ read = duals := by
  by_cases hlength : (duals.length : Int) = numItems
  · rw [readDuals_eq_ok hlength, Except.ok.injEq] at h
    exact ⟨hlength, h.symm⟩
  · rw [readDuals, if_neg (by simp [Position.eq, Position.ofNat, Position.ofInt, hlength])] at h
    cases h

namespace Window

/-- Whether a rational lies between the bounds of a window. -/
def Admits (window : Window Rat) (value : Rat) : Prop :=
  (∀ low ∈ window.lower, low ≤ value) ∧ ∀ high ∈ window.upper, value ≤ high

/-- A window contains exactly what lies between its bounds. -/
theorem contains_rat (window : Window Rat) (value : Rat) :
    (window.contains value = .ok true ∧ window.Admits value) ∨
      (window.contains value = .ok false ∧ ¬ window.Admits value) := by
  obtain ⟨lower, upper, name⟩ := window
  have hlower : ∃ answer, aboveLower lower value = .ok answer ∧
      (answer = true ↔ ∀ low ∈ lower, low ≤ value) := by
    cases lower with
    | none => exact ⟨true, by simp [aboveLower], by simp⟩
    | some low => exact ⟨decide (low ≤ value), by simp [aboveLower], by simp⟩
  have hupper : ∃ answer, belowUpper upper value = .ok answer ∧
      (answer = true ↔ ∀ high ∈ upper, value ≤ high) := by
    cases upper with
    | none => exact ⟨true, by simp [belowUpper], by simp⟩
    | some high => exact ⟨decide (value ≤ high), by simp [belowUpper], by simp⟩
  obtain ⟨above, habove, hlower⟩ := hlower
  obtain ⟨below, hbelow, hupper⟩ := hupper
  simp only [contains, habove, hbelow, bind, Except.bind, Admits, ← hlower, ← hupper]
  cases above <;> cases below <;> simp [pure, Except.pure]

/-- Resources are inside the windows exactly if each of them is admitted by its window. -/
theorem containsAll_rat (windows : List (Window Rat)) (values : List Rat) :
    ∃ answer, containsAll windows values = .ok answer ∧ (values.length = windows.length →
      (answer = true ↔ List.Forall₂ Admits windows values)) := by
  induction windows generalizing values with
  | nil =>
    refine ⟨true, rfl, fun hlength => ?_⟩
    rw [List.eq_nil_of_length_eq_zero hlength]
    simp
  | cons window windows ih =>
    cases values with
    | nil => exact ⟨true, rfl, by simp⟩
    | cons value values =>
      obtain ⟨answer, hanswer, hiff⟩ := ih values
      rcases contains_rat window value with ⟨hin, hadmits⟩ | ⟨hout, hnot⟩
      · refine ⟨answer, by simp [containsAll, hin, hanswer, bind, Except.bind], fun hlength => ?_⟩
        rw [hiff (by simpa using hlength), List.forall₂_cons]
        simp [hadmits]
      · refine ⟨false, by simp [containsAll, hout, bind, Except.bind, pure, Except.pure], ?_⟩
        simp [List.forall₂_cons, hnot]

/-- Resources are inside the windows exactly if each of them is admitted by its window. -/
theorem containsAll_iff {windows : List (Window Rat)} {values : List Rat}
    (hlength : values.length = windows.length) :
    containsAll windows values = .ok true ↔ List.Forall₂ Admits windows values := by
  obtain ⟨answer, hanswer, hiff⟩ := containsAll_rat windows values
  rw [hanswer, Except.ok.injEq]
  exact hiff hlength

end Window

/-- Resources are added entry by entry. -/
theorem extendResources_rat (resources consumption : List Rat) :
    extendResources resources consumption =
      .ok (List.zipWith (· + ·) resources consumption) := by
  induction resources generalizing consumption with
  | nil => rfl
  | cons value values ih =>
    cases consumption with
    | nil => rfl
    | cons used uses => simp [extendResources, ih, bind, Except.bind, pure, Except.pure]

/-- Lists whose entries are at most those of others, entry by entry, are compared through a third
one. -/
theorem forall₂_le_trans {β : Type} [Preorder β] {first second third : List β}
    (h : List.Forall₂ (· ≤ ·) first second) (hsecond : List.Forall₂ (· ≤ ·) second third) :
    List.Forall₂ (· ≤ ·) first third := by
  induction h generalizing third with
  | nil => exact hsecond
  | cons hle _ ih =>
    cases hsecond with
    | cons hle' hrest => exact List.Forall₂.cons (hle.trans hle') (ih hrest)

namespace Label

/-- No amount is above another one exactly if each is at most as large. -/
theorem noneAbove_rat (mine theirs : List Rat) :
    ∃ answer, noneAbove mine theirs = .ok answer ∧ (mine.length = theirs.length →
      (answer = true ↔ List.Forall₂ (· ≤ ·) mine theirs)) := by
  induction mine generalizing theirs with
  | nil =>
    refine ⟨true, rfl, fun hlength => ?_⟩
    rw [List.eq_nil_of_length_eq_zero hlength.symm]
    simp
  | cons first rest ih =>
    cases theirs with
    | nil => exact ⟨true, rfl, by simp⟩
    | cons other others =>
      obtain ⟨answer, hanswer, hiff⟩ := ih others
      by_cases hlt : other < first
      · refine ⟨false, by simp [noneAbove, hlt, bind, Except.bind, pure, Except.pure], ?_⟩
        simp [List.forall₂_cons, hlt]
      · refine ⟨answer, by simp [noneAbove, hlt, hanswer, bind, Except.bind], fun hlength => ?_⟩
        rw [hiff (by simpa using hlength), List.forall₂_cons]
        simp [not_lt.mp hlt]

/-- A label dominates another exactly if it is at most as large in its cost and in every resource. -/
theorem dominates_rat (label other : Label Int Rat) :
    ∃ answer, label.dominates other = .ok answer ∧
      (label.resources.length = other.resources.length → (answer = true ↔
        label.cost ≤ other.cost ∧ List.Forall₂ (· ≤ ·) label.resources other.resources)) := by
  obtain ⟨answer, hanswer, hiff⟩ := noneAbove_rat label.resources other.resources
  by_cases hlt : other.cost < label.cost
  · refine ⟨false, by simp [dominates, hlt, bind, Except.bind, pure, Except.pure], ?_⟩
    simp [hlt]
  · refine ⟨answer, by simp [dominates, hlt, hanswer, bind, Except.bind], fun hlength => ?_⟩
    rw [hiff hlength]
    simp [not_lt.mp hlt]

end Label

/-- What a pattern weighs when each copy of an item has the weight of the item. -/
def weigh (weights : List Rat) (counts : List Nat) : Rat :=
  (List.zipWith (fun weight (count : Nat) => weight * (count : Rat)) weights counts).sum

@[simp]
theorem weigh_nil_left (counts : List Nat) : weigh [] counts = 0 := rfl

@[simp]
theorem weigh_nil_right (weights : List Rat) : weigh weights [] = 0 := by
  simp [weigh]

@[simp]
theorem weigh_cons (weight : Rat) (weights : List Rat) (count : Nat) (counts : List Nat) :
    weigh (weight :: weights) (count :: counts) = weight * count + weigh weights counts := by
  simp [weigh]

/-- A pattern without any item weighs nothing. -/
@[simp]
theorem weigh_replicate_zero (weights : List Rat) (numItems : Nat) :
    weigh weights (List.replicate numItems 0) = 0 := by
  induction weights generalizing numItems with
  | nil => simp
  | cons weight weights ih =>
    cases numItems with
    | zero => simp
    | succ numItems => simp [List.replicate_succ, ih]

/-- Natural numbers as rationals. -/
abbrev rationals (numbers : List Nat) : List Rat := numbers.map fun (number : Nat) => (number : Rat)

/-- A pattern whose weights are natural numbers does not weigh less than nothing. -/
theorem weigh_rationals_nonneg (weights counts : List Nat) : 0 ≤ weigh (rationals weights) counts := by
  induction weights generalizing counts with
  | nil => simp
  | cons weight weights ih =>
    cases counts with
    | nil => simp
    | cons count counts =>
      rw [rationals, List.map_cons, weigh_cons]
      have hfirst : (0 : Rat) ≤ (weight : Rat) * count := by positivity
      exact add_nonneg hfirst (ih counts)

/-- One copy more of an item adds its weight. -/
theorem weigh_modify {weights : List Rat} {counts : List Nat} {place : Nat}
    (hplace : place < counts.length) :
    weigh weights (counts.modify place (· + 1)) = weigh weights counts + weights.getD place 0 := by
  induction weights generalizing counts place with
  | nil => simp
  | cons weight weights ih =>
    cases counts with
    | nil => simp at hplace
    | cons count counts =>
      cases place with
      | zero =>
        simp only [List.modify_zero_cons, weigh_cons, List.getD_cons_zero, Nat.cast_add,
          Nat.cast_one]
        ring
      | succ place =>
        simp only [List.modify_succ_cons, weigh_cons, List.getD_cons_succ,
          ih (Nat.lt_of_succ_lt_succ hplace)]
        ring

namespace Column

/-- The value of a pattern under duals. -/
theorem dualValue_rat {column : Column Rat} {duals : List Rat}
    (hlength : duals.length = column.counts.length) :
    column.dualValue duals = .ok (weigh duals column.counts) := by
  rw [dualValue, if_neg (by simpa [numItems] using hlength), Quantity.dot?_rat, amounts,
    List.zipWith_map_right]
  simp [weigh]

/-- The reduced cost of a pattern is its cost less its value. -/
theorem reducedCostUnder_rat {column : Column Rat} {duals : List Rat}
    (hlength : duals.length = column.counts.length) :
    column.reducedCostUnder duals = .ok (column.cost - weigh duals column.counts) := by
  rw [reducedCostUnder, dualValue_rat hlength]
  rfl

/-- A pattern fits exactly if its width is at most the capacity. -/
theorem fits_rat (column : Column Rat) (widths : List Rat) (capacity : Rat) :
    column.fits widths capacity = .ok (decide (weigh widths column.counts ≤ capacity)) := by
  have hcomm : (List.zipWith (· * ·) column.amounts widths).sum = weigh widths column.counts := by
    rw [amounts, List.zipWith_map_left, List.zipWith_comm, weigh]
    simp [mul_comm]
  rw [fits, width, Quantity.dot?_rat, hcomm]
  simp [bind, Except.bind]

end Column

end PatternCovering
