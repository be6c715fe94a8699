import PatternCovering.Proofs.Knapsack.Cells
import Mathlib.Tactic.Push

/-!
# The table of a knapsack

In exact arithmetic the cell for a width holds the best value of a pattern of at most that width. A
pattern with an item is one without it, of a smaller width, so that no pattern is worth more than the
cell for its width; and each step of the way back moves the value of an item from the cell to the
counts, so that the pattern that is read off is worth what its cell says.
-/

namespace PatternCovering

namespace Knapsack

variable {widths : List Nat} {duals : List Rat} {capacity : Nat}

/-- What the cell for a width holds: nothing and no item, or the value of a smaller width and one
item, and no item would give more. -/
structure CellFits (table : Array (Cell Rat)) (items : List (Nat × Nat × Rat)) (width : Nat)
    (cell : Cell Rat) : Prop where
  nonneg : 0 ≤ cell.value
  empty : cell.choice = none → cell.value = 0
  chosen : ∀ item ∈ cell.choice, ∃ itemWidth dual, (item, itemWidth, dual) ∈ items ∧
    itemWidth ≤ width ∧ cell.value = valueAt table (width - itemWidth) + dual
  best : ∀ item itemWidth dual, (item, itemWidth, dual) ∈ items → itemWidth ≤ width →
    valueAt table (width - itemWidth) + dual ≤ cell.value

/-- Trying one item more. -/
theorem CellFits.improve {table : Array (Cell Rat)} {items : List (Nat × Nat × Rat)} {width : Nat}
    {cell : Cell Rat} (h : CellFits table items width cell) (item itemWidth : Nat) (dual : Rat) :
    CellFits table (items ++ [(item, itemWidth, dual)]) width
      (improve table width cell item itemWidth dual) := by
  have hkept : ∀ entry ∈ items, entry ∈ items ++ [(item, itemWidth, dual)] :=
    fun entry hentry => List.mem_append_left _ hentry
  simp only [Knapsack.improve]
  by_cases hfits : itemWidth ≤ width
  · by_cases hlt : cell.value < valueAt table (width - itemWidth) + dual
    · simp only [hfits, if_true, Quantity.add_rat, Quantity.lt_rat, hlt, decide_true]
      refine ⟨le_of_lt (lt_of_le_of_lt h.nonneg hlt), fun hnone => by simp at hnone,
        fun chosen hchosen => ?_, fun other otherWidth otherDual hother hotherFits => ?_⟩
      · rw [← Option.some.inj hchosen]
        exact ⟨itemWidth, dual, by simp, hfits, rfl⟩
      · rcases List.mem_append.mp hother with hold | hnew
        · exact (h.best other otherWidth otherDual hold hotherFits).trans (le_of_lt hlt)
        · simp only [List.mem_singleton, Prod.mk.injEq] at hnew
          obtain ⟨-, rfl, rfl⟩ := hnew
          exact le_refl _
    · simp only [hfits, if_true, Quantity.add_rat, Quantity.lt_rat, hlt, decide_false,
        Bool.false_eq_true, if_false]
      refine ⟨h.nonneg, h.empty, fun chosen hchosen => ?_,
        fun other otherWidth otherDual hother hotherFits => ?_⟩
      · obtain ⟨chosenWidth, chosenDual, hmem, hrest⟩ := h.chosen chosen hchosen
        exact ⟨chosenWidth, chosenDual, hkept _ hmem, hrest⟩
      · rcases List.mem_append.mp hother with hold | hnew
        · exact h.best other otherWidth otherDual hold hotherFits
        · simp only [List.mem_singleton, Prod.mk.injEq] at hnew
          obtain ⟨-, rfl, rfl⟩ := hnew
          exact not_lt.mp hlt
  · simp only [hfits, if_false]
    refine ⟨h.nonneg, h.empty, fun chosen hchosen => ?_,
      fun other otherWidth otherDual hother hotherFits => ?_⟩
    · obtain ⟨chosenWidth, chosenDual, hmem, hrest⟩ := h.chosen chosen hchosen
      exact ⟨chosenWidth, chosenDual, hkept _ hmem, hrest⟩
    · rcases List.mem_append.mp hother with hold | hnew
      · exact h.best other otherWidth otherDual hold hotherFits
      · simp only [List.mem_singleton, Prod.mk.injEq] at hnew
        obtain ⟨-, rfl, rfl⟩ := hnew
        exact absurd hotherFits hfits

/-- Trying all items in order. -/
theorem cellFits_fill (table : Array (Cell Rat)) (items : List (Nat × Nat × Rat)) (width : Nat) :
    CellFits table items width (fill table items width) := by
  have hfold : ∀ (rest tried : List (Nat × Nat × Rat)) (cell : Cell Rat),
      CellFits table tried width cell →
      CellFits table (tried ++ rest) width (rest.foldl (fun cell (item, itemWidth, dual) =>
        Knapsack.improve table width cell item itemWidth dual) cell) := by
    intro rest
    induction rest with
    | nil =>
      intro tried cell h
      simpa using h
    | cons entry rest ih =>
      intro tried cell h
      obtain ⟨item, itemWidth, dual⟩ := entry
      have hnext := ih (tried ++ [(item, itemWidth, dual)]) _ (h.improve item itemWidth dual)
      rw [List.append_assoc] at hnext
      exact hnext
  exact hfold items [] Cell.start ⟨le_refl _, fun _ => rfl, by simp [Cell.start], by simp⟩

/-- Every cell of a table holds what it should. -/
theorem cellFits_tableOf (duals : List Rat) (hpos : ∀ width ∈ widths, 0 < width) {width : Nat}
    (hwidth : width ≤ capacity) :
    ∃ cell, (tableOf widths duals capacity)[width]? = some cell ∧
      CellFits (tableOf widths duals capacity) (itemsOf widths duals) width cell := by
  cases width with
  | zero =>
    refine ⟨Cell.start, getElem?_tableOf_zero widths duals capacity, le_refl _, fun _ => rfl,
      by simp [Cell.start], fun item itemWidth dual hitem hfits => ?_⟩
    have hwide := hpos itemWidth (List.mem_of_getElem? (mem_itemsOf.mp hitem).1)
    omega
  | succ width => exact ⟨_, getElem?_tableOf hpos hwidth, cellFits_fill _ _ _⟩

/-- A cell that is in a table holds what it should. -/
theorem cellFits_of_getElem? (hpos : ∀ width ∈ widths, 0 < width) {width : Nat} {cell : Cell Rat}
    (hcell : (tableOf widths duals capacity)[width]? = some cell) :
    CellFits (tableOf widths duals capacity) (itemsOf widths duals) width cell := by
  have hwidth := (Array.getElem?_eq_some_iff.mp hcell).1
  rw [size_tableOf] at hwidth
  obtain ⟨there, hthere, hspec⟩ := cellFits_tableOf duals hpos (Nat.le_of_lt_succ hwidth)
  rw [hthere, Option.some.injEq] at hcell
  exact hcell ▸ hspec

/-- Taking a copy of an item away and adding it again changes nothing. -/
theorem modify_succ_pred {counts : List Nat} {item count : Nat} (hcount : counts[item]? = some count)
    (hpos : 0 < count) : (counts.modify item (· - 1)).modify item (· + 1) = counts := by
  rw [List.modify_modify_eq]
  apply List.ext_getElem?
  intro place
  rw [List.getElem?_modify]
  split
  · next heq =>
    subst heq
    simp [hcount, Nat.sub_add_cancel hpos]
  · rw [id_map']

/-- No pattern is worth more than the cell for its width. -/
theorem weigh_le_valueAt (hpos : ∀ width ∈ widths, 0 < width) (hlength : duals.length = widths.length)
    {width : Nat} (hwidth : width ≤ capacity) {counts : List Nat}
    (hcounts : counts.length = widths.length) (hfits : weigh (rationals widths) counts ≤ width) :
    weigh duals counts ≤ valueAt (tableOf widths duals capacity) width := by
  induction width using Nat.strong_induction_on generalizing counts with
  | _ width ih =>
    obtain ⟨cell, hcell, hspec⟩ := cellFits_tableOf duals hpos hwidth
    have hvalue : valueAt (tableOf widths duals capacity) width = cell.value := by
      simp [valueAt, hcell]
    rw [hvalue]
    by_cases hempty : ∀ count ∈ counts, count = 0
    · rw [List.eq_replicate_iff.mpr ⟨rfl, hempty⟩, weigh_replicate_zero]
      exact hspec.nonneg
    · -- take one copy of an item away, which leaves a pattern for a smaller width
      push Not at hempty
      obtain ⟨count, hmem, hne⟩ := hempty
      obtain ⟨item, hlt, rfl⟩ := List.mem_iff_getElem.mp hmem
      have hback := modify_succ_pred (List.getElem?_eq_getElem hlt) (Nat.pos_of_ne_zero hne)
      have hitem : item < (counts.modify item (· - 1)).length := by simpa using hlt
      have hitemWidth : item < widths.length := hcounts ▸ hlt
      have hitemDual : item < duals.length := hlength.symm ▸ hitemWidth
      have hentry : (item, widths[item], duals[item]) ∈ itemsOf widths duals :=
        mem_itemsOf.mpr ⟨List.getElem?_eq_getElem hitemWidth, List.getElem?_eq_getElem hitemDual⟩
      have hless := weigh_rationals_nonneg widths (counts.modify item (· - 1))
      have hwide := hpos widths[item] (List.getElem_mem hitemWidth)
      rw [← hback, weigh_modify hitem] at hfits ⊢
      have hgetWidth : (rationals widths).getD item 0 = (widths[item] : Rat) := by
        simp [List.getD_eq_getElem?_getD, hitemWidth]
      have hgetDual : duals.getD item 0 = duals[item] := by
        simp [List.getD_eq_getElem?_getD, hitemDual]
      rw [hgetWidth] at hfits
      rw [hgetDual]
      have hfitsNat : widths[item] ≤ width := by
        have hcast : (widths[item] : Rat) ≤ width := by linarith
        exact_mod_cast hcast
      refine le_trans ?_ (hspec.best item widths[item] duals[item] hentry hfitsNat)
      have hroom : weigh (rationals widths) (counts.modify item (· - 1)) ≤
          ((width - widths[item] : Nat) : Rat) := by
        rw [Nat.cast_sub hfitsNat]
        linarith
      have hrest := ih (width - widths[item]) (by omega) (by omega) (by simpa using hcounts) hroom
      linarith

/-- A step of the way back moves the value of the chosen item from the cell to the counts. -/
theorem Back.keeps_value (hpos : ∀ width ∈ widths, 0 < width) {before after : Nat × List Nat}
    (h : Back (tableOf widths duals capacity) widths before after) :
    weigh duals after.2 + valueAt (tableOf widths duals capacity) after.1 =
      weigh duals before.2 + valueAt (tableOf widths duals capacity) before.1 := by
  cases h with
  | @step width item itemWidth counts cell _ hcell hchoice hitem hfits hcount =>
    obtain ⟨chosenWidth, dual, hmem, -, hvalue⟩ :=
      (cellFits_of_getElem? hpos hcell).chosen item hchoice
    obtain ⟨hchosen, hdual⟩ := mem_itemsOf.mp hmem
    obtain rfl : itemWidth = chosenWidth := Option.some.inj (hitem.symm.trans hchosen)
    have hget : duals.getD item 0 = dual := by simp [List.getD_eq_getElem?_getD, hdual]
    have hthere : valueAt (tableOf widths duals capacity) width = cell.value := by
      simp [valueAt, hcell]
    dsimp only
    rw [weigh_modify hcount, hget, hthere, hvalue]
    ring

/-- The way back keeps what the counts and the cell are worth together. -/
theorem wayBack_keeps_value (hpos : ∀ width ∈ widths, 0 < width) {before after : Nat × List Nat}
    (h : WayBack (tableOf widths duals capacity) widths before after) :
    weigh duals after.2 + valueAt (tableOf widths duals capacity) after.1 =
      weigh duals before.2 + valueAt (tableOf widths duals capacity) before.1 := by
  induction h with
  | refl => rfl
  | tail _ hstep ih => exact (hstep.keeps_value hpos).trans ih

/-- Where the way back ends, nothing of value is left. -/
theorem WayEnds.valueAt_eq_zero (hpos : ∀ width ∈ widths, 0 < width) {width : Nat}
    (h : WayEnds (tableOf widths duals capacity) width) :
    valueAt (tableOf widths duals capacity) width = 0 := by
  rcases h with rfl | ⟨cell, hcell, hchoice⟩
  · simp [valueAt, getElem?_tableOf_zero, Cell.start]
  · simpa [valueAt, hcell] using (cellFits_of_getElem? hpos hcell).empty hchoice

/-- A pattern that is read off on the way back from a width is worth what the cell says. -/
theorem weigh_of_wayBack (hpos : ∀ width ∈ widths, 0 < width) {width last numItems : Nat}
    {counts : List Nat} (hwalk : WayBack (tableOf widths duals capacity) widths
      (width, List.replicate numItems 0) (last, counts))
    (hends : WayEnds (tableOf widths duals capacity) last) :
    weigh duals counts = valueAt (tableOf widths duals capacity) width := by
  have hvalue := wayBack_keeps_value hpos hwalk
  dsimp only at hvalue
  rwa [hends.valueAt_eq_zero hpos, weigh_replicate_zero, zero_add, add_zero] at hvalue

/-- No width has a better value than the best width, and no smaller one has as good a value. -/
theorem bestWidth_spec (table : Array (Cell Rat)) (capacity : Nat) :
    (∀ width, width ≤ capacity → valueAt table width ≤ valueAt table (bestWidth table capacity)) ∧
      ∀ width, width < bestWidth table capacity →
        valueAt table width < valueAt table (bestWidth table capacity) := by
  induction capacity with
  | zero =>
    refine ⟨fun width hwidth => ?_, fun width hwidth => absurd hwidth (Nat.not_lt_zero width)⟩
    rw [Nat.le_zero.mp hwidth]
    exact le_refl _
  | succ capacity ih =>
    obtain ⟨hbest, hfirst⟩ := ih
    rw [bestWidth_succ, Quantity.lt_rat]
    by_cases hlt : valueAt table (bestWidth table capacity) < valueAt table (capacity + 1)
    · have hbelow : ∀ width, width ≤ capacity → valueAt table width < valueAt table (capacity + 1) :=
        fun width hwidth => (hbest width hwidth).trans_lt hlt
      rw [if_pos (decide_eq_true hlt)]
      refine ⟨fun width hwidth => ?_, fun width hwidth => hbelow width (Nat.le_of_lt_succ hwidth)⟩
      rcases Nat.le_succ_iff.mp hwidth with hsmall | rfl
      · exact le_of_lt (hbelow width hsmall)
      · exact le_refl _
    · rw [if_neg (by simpa using hlt)]
      refine ⟨fun width hwidth => ?_, hfirst⟩
      rcases Nat.le_succ_iff.mp hwidth with hsmall | rfl
      · exact hbest width hsmall
      · exact not_lt.mp hlt

end Knapsack

/-- The counts of a pattern of items of the given widths, within a capacity. -/
def IsPattern (widths : List Nat) (capacity : Nat) (counts : List Nat) : Prop :=
  counts.length = widths.length ∧ weigh (rationals widths) counts ≤ capacity

/-- What it means to offer a pattern of the greatest value under duals. -/
structure OffersBest (widths : List Nat) (capacity : Nat) (unitCost : Rat) (duals : List Rat)
    (offer : Offer Rat) : Prop where
  status_eq : offer.status = .optimal
  cost_eq : offer.column.cost = unitCost
  pattern : IsPattern widths capacity offer.column.counts
  reducedCost_eq : offer.reducedCost = unitCost - weigh duals offer.column.counts
  best : ∀ counts, IsPattern widths capacity counts →
    weigh duals counts ≤ weigh duals offer.column.counts

namespace Knapsack

variable (knapsack : Knapsack Rat) {duals : List Rat}

/-- The offered pattern is worth as much as the best width. -/
theorem weigh_bestColumn (duals : List Rat) :
    weigh duals (knapsack.bestColumn duals).counts =
      valueAt (knapsack.table duals) (knapsack.chosenWidth (knapsack.table duals)) := by
  obtain ⟨last, hwalk, hends⟩ := knapsack.wayBack_bestColumn duals
  exact weigh_of_wayBack knapsack.widths_pos hwalk hends

/-- The offered pattern fits into the best width. -/
theorem isPattern_bestColumn (duals : List Rat) :
    IsPattern knapsack.widths (knapsack.chosenWidth (knapsack.table duals))
      (knapsack.bestColumn duals).counts := by
  obtain ⟨hlength, hwidth⟩ := knapsack.bestColumn_fits duals
  refine ⟨hlength, ?_⟩
  rw [weigh_rationals]
  exact_mod_cast hwidth

/-- A knapsack offers a pattern of the greatest value. -/
theorem price_best (hlength : duals.length = knapsack.widths.length) :
    ∃ offer events, knapsack.price duals = .ok (offer, events) ∧
      OffersBest knapsack.widths knapsack.capacity knapsack.settings.unitCost duals offer := by
  have hread : readDuals (knapsack.numItems : Int) duals = .ok duals :=
    readDuals_eq_ok (by exact_mod_cast hlength)
  have hpattern := knapsack.isPattern_bestColumn duals
  have hreduced := Column.reducedCostUnder_rat (hlength.trans hpattern.1.symm)
  have hcapacity : (knapsack.chosenWidth (knapsack.table duals) : Rat) ≤ knapsack.capacity := by
    exact_mod_cast bestWidth_le (knapsack.table duals) knapsack.capacity
  have hprice := knapsack.price_eq hread
  rw [hreduced, Except.map] at hprice
  refine ⟨_, _, hprice, rfl, rfl, ⟨hpattern.1, hpattern.2.trans hcapacity⟩, rfl,
    fun counts hcounts => ?_⟩
  calc weigh duals counts
    _ ≤ valueAt (knapsack.table duals) knapsack.capacity :=
      weigh_le_valueAt knapsack.widths_pos hlength (Nat.le_refl _) hcounts.1 hcounts.2
    _ ≤ valueAt (knapsack.table duals) (knapsack.chosenWidth (knapsack.table duals)) :=
      (bestWidth_spec (knapsack.table duals) knapsack.capacity).1 _ (Nat.le_refl _)
    _ = weigh duals (knapsack.bestColumn duals).counts := (knapsack.weigh_bestColumn duals).symm

end Knapsack

end PatternCovering
