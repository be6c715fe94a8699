import PatternCovering.Model
import PatternCovering.Proofs.Double.Keys

/-!
# Entries as sums of what was given

The entry at a row and a column is the sum, from left to right and from zero on, of the amounts that
were given for the place, and there is none if none was given. Rows and columns may be given in any
form: an amount counts for the place whose integers its row and its column are the same keys as. No
law of the addition is used, so that this holds for doubles with their rounding.
-/

namespace PatternCovering

variable {α : Type}

namespace Model

/-- Whether a row and a column, as they were given, are the place at two integers. -/
def isPlace (place other : Int) (row column : Datum) : Bool :=
  row.same (.int place) && column.same (.int other)

/-- Entries at the same row and column are at the same integers. -/
theorem isAt_int_of_isAt {entry : Entry α} {row column : Datum} (h : entry.isAt row column = true)
    (place other : Int) :
    entry.isAt (.int place) (.int other) = isPlace place other row column := by
  rw [Entry.isAt, Bool.and_eq_true] at h
  rw [Entry.isAt, isPlace, Datum.same_int_congr h.1, Datum.same_int_congr h.2]

/-- An entry at two integers is at every row and column that are the place of these integers. -/
theorem isAt_of_isAt_int {entry : Entry α} {row column : Datum} {place other : Int}
    (h : entry.isAt (.int place) (.int other) = true) (hplace : isPlace place other row column = true) :
    entry.isAt row column = true := by
  rw [Entry.isAt, Bool.and_eq_true] at h
  rw [isPlace, Bool.and_eq_true] at hplace
  rw [Entry.isAt, Datum.same_of_same_int h.1 hplace.1, Datum.same_of_same_int h.2 hplace.2]
  rfl

end Model

variable [Quantity α]

/-- The sum of some amounts from left to right, from zero on; none if there are no amounts. -/
def Quantity.total? (amounts : List α) : Option α :=
  if amounts.isEmpty then none else some (amounts.foldl Quantity.add Quantity.zero)

/-- A further amount is added to the sum, which is zero if there was none. -/
theorem Quantity.total?_concat (amounts : List α) (amount : α) :
    total? (amounts ++ [amount]) = some (Quantity.add ((total? amounts).getD Quantity.zero) amount) := by
  rw [total?, total?, List.foldl_append]
  cases amounts <;> rfl

namespace Model

/-- Adding to an entry changes the value at its place and nowhere else. -/
theorem valueAt?_accumulate_int (place other : Int) (row column : Datum) (amount : α)
    (entries : List (Entry α)) :
    valueAt? (.int place) (.int other) (accumulate row column amount entries) =
      if isPlace place other row column then
        some (Quantity.add ((valueAt? (.int place) (.int other) entries).getD Quantity.zero) amount)
      else valueAt? (.int place) (.int other) entries := by
  induction entries with
  | nil =>
    rw [accumulate, valueAt?, List.find?_cons]
    change Option.map _ (match isPlace place other row column with
      | true => some _ | false => List.find? _ []) = _
    cases isPlace place other row column <;> rfl
  | cons entry rest ih =>
    rw [accumulate]
    by_cases hmatch : entry.isAt row column = true
    · -- the amount goes to this entry
      have hhere := isAt_int_of_isAt hmatch place other
      have hchanged : ∀ value : α, Entry.isAt { entry with value } (.int place) (.int other) =
          isPlace place other row column := fun _ => hhere
      rw [if_pos hmatch]
      simp only [valueAt?, List.find?_cons, hchanged]
      cases isPlace place other row column <;> rfl
    · rw [if_neg hmatch]
      simp only [valueAt?, List.find?_cons] at ih ⊢
      rcases hlook : entry.isAt (.int place) (.int other) with - | -
      · exact ih
      · have hpass : isPlace place other row column = false := by
          rw [Bool.eq_false_iff]
          exact fun hplace => hmatch (isAt_of_isAt_int hlook hplace)
        rw [hpass]
        rfl

/-- Whether the values of some entries at two integers are the sum of some amounts. -/
def Sums (place other : Int) (entries : List (Entry α)) (amounts : List α) : Prop :=
  valueAt? (.int place) (.int other) entries = Quantity.total? amounts

/-- An amount that is added to an entry counts at its place. -/
theorem Sums.accumulate {place other : Int} {entries : List (Entry α)} {amounts : List α}
    (h : Sums place other entries amounts) (row column : Datum) (amount : α) :
    Sums place other (accumulate row column amount entries)
      (amounts ++ if isPlace place other row column then [amount] else []) := by
  rw [Sums, valueAt?_accumulate_int, h]
  split
  · rw [Quantity.total?_concat]
  · rw [List.append_nil]

/-- The coefficients of some terms that are given for a column. -/
def coefficientsAt (other : Int) (terms : List (Datum × α)) : List α :=
  terms.filterMap fun (column, amount) => if column.same (.int other) then some amount else none

/-- The terms of a row count at the places of their columns. -/
theorem Sums.addTerms {place other : Int} {entries : List (Entry α)} {amounts : List α}
    (h : Sums place other entries amounts) (row : Nat) (terms : List (Datum × α)) :
    Sums place other (addTerms (.int row) terms entries)
      (amounts ++ if (row : Int) = place then coefficientsAt other terms else []) := by
  induction terms generalizing entries amounts with
  | nil =>
    rw [coefficientsAt, List.filterMap_nil, ite_self, List.append_nil]
    exact h
  | cons term rest ih =>
    obtain ⟨column, amount⟩ := term
    have hnext := ih (h.accumulate (.int row) column amount)
    have hamounts : ((if isPlace place other (.int row) column then [amount] else []) ++
        if (row : Int) = place then coefficientsAt other rest else []) =
          if (row : Int) = place then coefficientsAt other ((column, amount) :: rest) else [] := by
      rw [isPlace, Datum.same_int]
      by_cases hrow : (row : Int) = place
      · cases hcolumn : column.same (.int other) <;> simp [hrow, hcolumn, coefficientsAt]
      · simp [hrow]
    rw [List.append_assoc, hamounts] at hnext
    exact hnext

end Model

end PatternCovering
