import PatternCovering.Column
import PatternCovering.Proofs.Exact
import Mathlib.Algebra.Order.BigOperators.Group.List
import Mathlib.Order.Bounds.Basic

/-!
# Covering demands by columns

Columns are used a number of times each, by fractions too. Used so, they cover demands when they
yield as much of each item as is wanted, at an expense that is to be as small as possible. A column
that is not used changes nothing, so that more columns never cost more. With one column for each
single item the least expense is the number of pieces wanted.
-/

namespace PatternCovering

/-- How much of an item columns yield when each is used some number of times. -/
def yieldOf (columns : List (Column Rat)) (usages : List Rat) (item : Nat) : Rat :=
  (List.zipWith (fun column usage => (column.counts.getD item 0 : Rat) * usage) columns usages).sum

/-- The cost of columns when each is used some number of times. -/
def expenseOf (columns : List (Column Rat)) (usages : List Rat) : Rat :=
  (List.zipWith (fun column usage => column.cost * usage) columns usages).sum

/-- Whether usages of columns, none of them negative, meet demands. -/
structure MeetsDemands (demands : List Nat) (columns : List (Column Rat)) (usages : List Rat) :
    Prop where
  length_eq : usages.length = columns.length
  nonneg : ∀ usage ∈ usages, 0 ≤ usage
  meets : ∀ item demand : Nat, demands[item]? = some demand →
    (demand : Rat) ≤ yieldOf columns usages item

/-- Whether an expense is the least at which columns meet demands. -/
def IsLeastExpense (demands : List Nat) (columns : List (Column Rat)) (expense : Rat) : Prop :=
  IsLeast {total | ∃ usages, MeetsDemands demands columns usages ∧
    expenseOf columns usages = total} expense

variable {demands : List Nat} {columns : List (Column Rat)} {usages : List Rat}

/-- A column that is not used yields nothing. -/
theorem yieldOf_concat_zero (hlength : usages.length = columns.length) (column : Column Rat)
    (item : Nat) :
    yieldOf (columns ++ [column]) (usages ++ [0]) item = yieldOf columns usages item := by
  rw [yieldOf, List.zipWith_append hlength.symm]
  simp [yieldOf]

/-- A column that is not used costs nothing. -/
theorem expenseOf_concat_zero (hlength : usages.length = columns.length) (column : Column Rat) :
    expenseOf (columns ++ [column]) (usages ++ [0]) = expenseOf columns usages := by
  rw [expenseOf, List.zipWith_append hlength.symm]
  simp [expenseOf]

/-- Demands that are met stay met when a column is added and not used. -/
theorem MeetsDemands.concat_zero (h : MeetsDemands demands columns usages) (column : Column Rat) :
    MeetsDemands demands (columns ++ [column]) (usages ++ [0]) where
  length_eq := by simp [h.length_eq]
  nonneg := by
    intro usage husage
    rcases List.mem_append.mp husage with hold | hzero
    · exact h.nonneg usage hold
    · rw [List.mem_singleton.mp hzero]
  meets := by
    intro item demand hdemand
    rw [yieldOf_concat_zero h.length_eq]
    exact h.meets item demand hdemand

/-- One column more never makes demands more expensive. -/
theorem IsLeastExpense.concat_le {before after : Rat} (h : IsLeastExpense demands columns before)
    {column : Column Rat} (hmore : IsLeastExpense demands (columns ++ [column]) after) :
    after ≤ before := by
  obtain ⟨⟨usages, hmeets, rfl⟩, -⟩ := h
  exact hmore.2 ⟨usages ++ [0], hmeets.concat_zero column,
    expenseOf_concat_zero hmeets.length_eq column⟩

section Singles

/-- The columns that each have one copy of one item and cost one. -/
structure AreSingles (numItems : Nat) (columns : List (Column Rat)) : Prop where
  counts_eq : columns.map (·.counts) =
    (List.range numItems).map fun item => (List.replicate numItems 0).set item 1
  cost_eq : ∀ column ∈ columns, column.cost = 1

variable {numItems : Nat}

/-- There is one column for each item. -/
theorem AreSingles.length_eq (h : AreSingles numItems columns) : columns.length = numItems := by
  simpa using congrArg List.length h.counts_eq

/-- Single items yield of each item as much as its column is used. -/
theorem AreSingles.yieldOf_eq (h : AreSingles numItems columns) (husages : usages.length = numItems)
    {item : Nat} (hitem : item < numItems) : yieldOf columns usages item = usages.getD item 0 := by
  have hcounts : yieldOf columns usages item = (List.zipWith (fun counts usage =>
      ((counts : List Nat).getD item 0 : Rat) * usage) (columns.map (·.counts)) usages).sum := by
    rw [List.zipWith_map_left]
    rfl
  have hterms : List.zipWith (fun counts usage => ((counts : List Nat).getD item 0 : Rat) * usage)
      ((List.range numItems).map fun item => (List.replicate numItems 0).set item 1) usages =
        (List.replicate numItems 0).set item (usages.getD item 0) := by
    apply List.ext_getElem
    · simp [husages]
    · intro place hleft hright
      have hplace : place < numItems := by simpa using hright
      by_cases heq : place = item
      · subst heq
        simp [hplace, husages, List.getD_eq_getElem?_getD]
      · simp [heq, Ne.symm heq, hitem, List.getD_eq_getElem?_getD]
  rw [hcounts, h.counts_eq, hterms, List.sum_set]
  simp [hitem]

/-- Single items cost as much as they are used. -/
theorem AreSingles.expenseOf_eq (h : AreSingles numItems columns)
    (husages : usages.length = numItems) : expenseOf columns usages = usages.sum := by
  have hterms : List.zipWith (fun column usage => column.cost * usage) columns usages = usages := by
    apply List.ext_getElem
    · simp [husages, h.length_eq]
    · intro place hleft hright
      have hplace : place < columns.length := by rw [h.length_eq, ← husages]; exact hright
      simp [h.cost_eq _ (List.getElem_mem hplace)]
  rw [expenseOf, hterms]

/-- With one column for each single item the least expense is the number of pieces wanted. -/
theorem AreSingles.isLeastExpense (h : AreSingles demands.length columns) :
    IsLeastExpense demands columns (rationals demands).sum := by
  constructor
  · refine ⟨rationals demands, ⟨by simp [h.length_eq], ?_, ?_⟩, h.expenseOf_eq (by simp)⟩
    · intro usage husage
      obtain ⟨demand, -, rfl⟩ := List.mem_map.mp husage
      exact Nat.cast_nonneg demand
    · intro item demand hdemand
      have hitem := (List.getElem?_eq_some_iff.mp hdemand).1
      rw [h.yieldOf_eq (by simp) hitem]
      simp [List.getD_eq_getElem?_getD, hdemand]
  · rintro total ⟨usages, hmeets, rfl⟩
    have hlength : usages.length = demands.length := hmeets.length_eq.trans h.length_eq
    rw [h.expenseOf_eq hlength]
    refine List.Forall₂.sum_le_sum (List.forall₂_iff_get.mpr ⟨by simp [hlength], ?_⟩)
    intro item hleft hright
    have hitem : item < demands.length := by simpa using hleft
    have hmet := hmeets.meets item demands[item] (List.getElem?_eq_getElem hitem)
    rw [h.yieldOf_eq hlength hitem] at hmet
    simpa [List.getD_eq_getElem?_getD, hright] using hmet

end Singles

end PatternCovering
