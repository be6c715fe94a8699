import PatternCovering.Proofs.Knapsack.Table
import Mathlib.Order.Bounds.Basic

/-!
# The best pattern of a knapsack

In exact arithmetic the cell for a width is the greatest value of a pattern of at most that width, so
that the values do not fall with the width and the last one is the greatest of all. The best width is
the first that has this value. A pattern of the greatest value cannot be narrower, for its own width
would come first; so nothing is left at the end of the way back from the best width, and an item that
adds no value is not used, for the pattern without it would be as good and narrower.
-/

namespace PatternCovering

namespace Knapsack

/-- A pattern within a width is one whose total width is at most that. -/
theorem isPattern_iff {widths counts : List Nat} {width : Nat} :
    IsPattern widths width counts ↔
      counts.length = widths.length ∧ totalWidth widths counts ≤ width := by
  rw [IsPattern, weigh_rationals, Nat.cast_le]

/-- The values under duals of the patterns within a width. -/
def patternValues (widths : List Nat) (duals : List Rat) (width : Nat) : Set Rat :=
  {value | ∃ counts, IsPattern widths width counts ∧ weigh duals counts = value}

/-- A pattern of the greatest value under duals within a width. -/
def IsBest (widths : List Nat) (duals : List Rat) (width : Nat) (counts : List Nat) : Prop :=
  IsPattern widths width counts ∧
    ∀ other, IsPattern widths width other → weigh duals other ≤ weigh duals counts

section Values

variable {widths : List Nat} {duals : List Rat} {capacity : Nat}

/-- A wider pattern is allowed in a greater width. -/
theorem patternValues_mono {narrow wide : Nat} (h : narrow ≤ wide) :
    patternValues widths duals narrow ⊆ patternValues widths duals wide := by
  rintro value ⟨counts, hpattern, hvalue⟩
  rw [isPattern_iff] at hpattern
  exact ⟨counts, isPattern_iff.mpr ⟨hpattern.1, hpattern.2.trans h⟩, hvalue⟩

/-- The cell for a width has the greatest value of a pattern within it. -/
theorem isGreatest_valueAt (hpos : ∀ width ∈ widths, 0 < width)
    (hlength : duals.length = widths.length) {width : Nat} (hwidth : width ≤ capacity) :
    IsGreatest (patternValues widths duals width)
      (valueAt (tableOf widths duals capacity) width) := by
  constructor
  · obtain ⟨last, hwalk, hends⟩ := wayBack_unwind hpos (choicesFit_tableOf duals hpos capacity)
      (Nat.le_refl width) (by rw [size_tableOf]; exact Nat.lt_succ_of_le hwidth)
      (List.length_replicate (n := widths.length) (a := 0))
    obtain ⟨htotal, hsize⟩ := wayBack_keeps hwalk
    rw [totalWidth_replicate_zero, Nat.zero_add] at htotal
    rw [List.length_replicate] at hsize
    exact ⟨_, isPattern_iff.mpr ⟨hsize, Nat.le.intro htotal⟩, weigh_of_wayBack hpos hwalk hends⟩
  · rintro value ⟨counts, hpattern, rfl⟩
    exact weigh_le_valueAt hpos hlength hwidth hpattern.1 hpattern.2

/-- The values of a table do not fall with the width. -/
theorem valueAt_mono (hpos : ∀ width ∈ widths, 0 < width) (hlength : duals.length = widths.length)
    {narrow wide : Nat} (hle : narrow ≤ wide) (hwide : wide ≤ capacity) :
    valueAt (tableOf widths duals capacity) narrow ≤ valueAt (tableOf widths duals capacity) wide :=
  (isGreatest_valueAt hpos hlength (hle.trans hwide)).mono (isGreatest_valueAt hpos hlength hwide)
    (patternValues_mono hle)

end Values

section Ties

variable (knapsack : Knapsack Rat) {duals : List Rat}

/-- The best width has the greatest value of the whole table. -/
theorem valueAt_chosenWidth (hlength : duals.length = knapsack.widths.length) :
    valueAt (knapsack.table duals) (knapsack.chosenWidth (knapsack.table duals)) =
      valueAt (knapsack.table duals) knapsack.capacity :=
  le_antisymm (valueAt_mono knapsack.widths_pos hlength (bestWidth_le _ _) (Nat.le_refl _))
    ((bestWidth_spec (knapsack.table duals) knapsack.capacity).1 _ (Nat.le_refl _))

/-- The offered pattern has the greatest value. -/
theorem isBest_bestColumn (hlength : duals.length = knapsack.widths.length) :
    IsBest knapsack.widths duals knapsack.capacity (knapsack.bestColumn duals).counts := by
  obtain ⟨hsize, hwidth⟩ := knapsack.bestColumn_fits duals
  refine ⟨isPattern_iff.mpr ⟨hsize, hwidth.trans (bestWidth_le _ _)⟩, fun other hother => ?_⟩
  rw [knapsack.weigh_bestColumn, knapsack.valueAt_chosenWidth hlength]
  exact (isGreatest_valueAt knapsack.widths_pos hlength (Nat.le_refl _)).2 ⟨other, hother, rfl⟩

/-- A pattern of the greatest value is not narrower than the best width. -/
theorem chosenWidth_le (hlength : duals.length = knapsack.widths.length) {counts : List Nat}
    (h : IsBest knapsack.widths duals knapsack.capacity counts) :
    knapsack.chosenWidth (knapsack.table duals) ≤ totalWidth knapsack.widths counts := by
  obtain ⟨hsize, hwidth⟩ := isPattern_iff.mp h.1
  by_contra hlt
  have hfirst := (bestWidth_spec (knapsack.table duals) knapsack.capacity).2 _ (not_le.mp hlt)
  have hvalue : weigh duals counts ≤
      valueAt (knapsack.table duals) (totalWidth knapsack.widths counts) :=
    (isGreatest_valueAt knapsack.widths_pos hlength hwidth).2
      ⟨counts, isPattern_iff.mpr ⟨hsize, Nat.le_refl _⟩, rfl⟩
  have hbest := h.2 _ (knapsack.isBest_bestColumn hlength).1
  rw [knapsack.weigh_bestColumn] at hbest
  exact absurd (hbest.trans hvalue) (not_le.mpr hfirst)

/-- The offered pattern is exactly as wide as the best width. -/
theorem totalWidth_bestColumn (hlength : duals.length = knapsack.widths.length) :
    totalWidth knapsack.widths (knapsack.bestColumn duals).counts =
      knapsack.chosenWidth (knapsack.table duals) :=
  le_antisymm (knapsack.bestColumn_fits duals).2
    (knapsack.chosenWidth_le hlength (knapsack.isBest_bestColumn hlength))

/-- Nothing is left at the end of the way back from the best width. -/
theorem wayBack_to_zero (hlength : duals.length = knapsack.widths.length) :
    WayBack (knapsack.table duals) knapsack.widths
      (knapsack.chosenWidth (knapsack.table duals), List.replicate knapsack.numItems 0)
      (0, (knapsack.bestColumn duals).counts) := by
  obtain ⟨last, hwalk, -⟩ := knapsack.wayBack_bestColumn duals
  obtain ⟨hwidth, -⟩ := wayBack_keeps hwalk
  have htotal := knapsack.totalWidth_bestColumn hlength
  rw [totalWidth_replicate_zero] at hwidth
  obtain rfl : last = 0 := by
    dsimp only at hwidth
    omega
  exact hwalk

/-- An item of the offered pattern adds to its value. -/
theorem dual_pos_of_count_pos (hlength : duals.length = knapsack.widths.length)
    {item count : Nat} {dual : Rat} (hcount : (knapsack.bestColumn duals).counts[item]? = some count)
    (hused : 0 < count) (hdual : duals[item]? = some dual) : 0 < dual := by
  have hbest := knapsack.isBest_bestColumn hlength
  have hwidth := knapsack.totalWidth_bestColumn hlength
  generalize (knapsack.bestColumn duals).counts = counts at hcount hbest hwidth
  obtain ⟨hsize, hroom⟩ := isPattern_iff.mp hbest.1
  have hitem : item < counts.length := (List.getElem?_eq_some_iff.mp hcount).1
  obtain ⟨itemWidth, hitemWidth⟩ : ∃ itemWidth, knapsack.widths[item]? = some itemWidth :=
    ⟨_, List.getElem?_eq_getElem (hsize ▸ hitem)⟩
  have hwide := knapsack.widths_pos itemWidth (List.mem_of_getElem? hitemWidth)
  have hget : duals.getD item 0 = dual := by simp [List.getD_eq_getElem?_getD, hdual]
  -- the pattern with one copy less, which is narrower
  have hless : item < (counts.modify item (· - 1)).length := by simpa using hitem
  have hvalue : weigh duals ((counts.modify item (· - 1)).modify item (· + 1)) = _ :=
    weigh_modify hless
  have htotal := totalWidth_modify hitemWidth hless
  rw [modify_succ_pred hcount hused] at hvalue htotal
  rw [hget] at hvalue
  by_contra hdual
  have hnarrow : IsBest knapsack.widths duals knapsack.capacity (counts.modify item (· - 1)) := by
    refine ⟨isPattern_iff.mpr ⟨by simpa using hsize, by omega⟩, fun other hother => ?_⟩
    have hle := hbest.2 other hother
    linarith
  have hleast := knapsack.chosenWidth_le hlength hnarrow
  omega

end Ties

/-- A knapsack offers, for every vector of duals, a pattern within the capacity of the greatest value
that such a pattern has, at the cost of a pattern less that value. -/
theorem price_greatest_value (knapsack : Knapsack Rat) {duals : List Rat}
    (hlength : duals.length = knapsack.widths.length) :
    ∃ offer events greatest, knapsack.price duals = .ok (offer, events) ∧
      (∀ room, knapsack.requireRoom room = .ok () →
        knapsack.priceInRoom room duals = .ok (offer, events)) ∧
      offer.column.counts.length = knapsack.widths.length ∧
      totalWidth knapsack.widths offer.column.counts ≤ knapsack.capacity ∧
      weigh duals offer.column.counts = greatest ∧
      (∀ counts, counts.length = knapsack.widths.length →
        totalWidth knapsack.widths counts ≤ knapsack.capacity → weigh duals counts ≤ greatest) ∧
      offer.column.cost = knapsack.settings.unitCost ∧
      offer.reducedCost = knapsack.settings.unitCost - greatest ∧
      offer.column.reducedCost = some offer.reducedCost := by
  have hread : readDuals (knapsack.numItems : Int) duals = .ok duals :=
    readDuals_eq_ok (by exact_mod_cast hlength)
  obtain ⟨offer, events, hprice, hbest⟩ := knapsack.price_best hlength
  obtain ⟨hsize, hwidth⟩ := isPattern_iff.mp hbest.pattern
  refine ⟨offer, events, _, hprice, fun room hroom => (knapsack.priceInRoom_eq hroom duals).trans hprice,
    hsize, hwidth, rfl,
    fun counts hcounts hfits => hbest.best counts (isPattern_iff.mpr ⟨hcounts, hfits⟩),
    hbest.cost_eq, hbest.reducedCost_eq, ?_⟩
  obtain ⟨reducedCost, -, rfl⟩ := knapsack.of_price hread hprice
  rfl

/-- Items of the widths two, three and four and a capacity of seven, which is met exactly only with the
item of width three. -/
def narrowItems : Knapsack Rat :=
  { widths := [2, 3, 4], capacity := 7, settings := ⟨1, 0, true⟩, widths_pos := by decide }

/-- The greatest value is at least that of one narrow and one wide item. -/
theorem price_greatest_value_narrowItems :
    ∃ offer events greatest, narrowItems.price [1, -1, 2] = .ok (offer, events) ∧
      totalWidth [2, 3, 4] offer.column.counts ≤ 7 ∧
      weigh [1, -1, 2] offer.column.counts = greatest ∧ 3 ≤ greatest ∧
      offer.reducedCost = 1 - greatest := by
  obtain ⟨offer, events, greatest, hprice, -, -, hwidth, hvalue, hbest, -, hreduced, -⟩ :=
    @price_greatest_value narrowItems [1, -1, 2] rfl
  have hthree := hbest [1, 0, 1] rfl (by decide)
  refine ⟨offer, events, greatest, hprice, hwidth, hvalue, ?_, hreduced⟩
  norm_num [weigh] at hthree
  exact hthree

/-- How a knapsack decides between patterns of the same value. The cell for each width has the
greatest value of a pattern within it, so that the values do not fall and the last one is the
greatest. The way back from the best width ends with nothing left, the offered pattern is as wide as
the best width, which is the least width of a pattern of the greatest value, and each item in it has a
positive dual. -/
theorem price_least_width (knapsack : Knapsack Rat) {duals : List Rat}
    (hlength : duals.length = knapsack.widths.length) :
    (∀ width, width ≤ knapsack.capacity → ∃ cell, (knapsack.table duals)[width]? = some cell ∧
      IsGreatest (patternValues knapsack.widths duals width) cell.value) ∧
    (∀ narrow wide, narrow ≤ wide → wide ≤ knapsack.capacity →
      valueAt (knapsack.table duals) narrow ≤ valueAt (knapsack.table duals) wide) ∧
    ∃ offer events, knapsack.price duals = .ok (offer, events) ∧
      weigh duals offer.column.counts = valueAt (knapsack.table duals) knapsack.capacity ∧
      WayBack (knapsack.table duals) knapsack.widths
        (knapsack.chosenWidth (knapsack.table duals), List.replicate knapsack.numItems 0)
        (0, offer.column.counts) ∧
      totalWidth knapsack.widths offer.column.counts =
        knapsack.chosenWidth (knapsack.table duals) ∧
      IsLeast {width | ∃ counts, IsBest knapsack.widths duals knapsack.capacity counts ∧
        totalWidth knapsack.widths counts = width} (totalWidth knapsack.widths offer.column.counts) ∧
      ∀ (item count : Nat) (dual : Rat), offer.column.counts[item]? = some count → 0 < count →
        duals[item]? = some dual → 0 < dual := by
  have hread : readDuals (knapsack.numItems : Int) duals = .ok duals :=
    readDuals_eq_ok (by exact_mod_cast hlength)
  refine ⟨fun width hwidth => ?_, fun narrow wide => valueAt_mono knapsack.widths_pos hlength, ?_⟩
  · obtain ⟨cell, hcell, -⟩ := cellFits_tableOf duals knapsack.widths_pos hwidth
    have hgreatest := isGreatest_valueAt knapsack.widths_pos hlength hwidth
    rw [valueAt, hcell] at hgreatest
    exact ⟨cell, hcell, hgreatest⟩
  · obtain ⟨offer, events, hprice, -⟩ := knapsack.price_best hlength
    obtain ⟨reducedCost, -, hoffer⟩ := knapsack.of_price hread hprice
    have hcounts : offer.column.counts = (knapsack.bestColumn duals).counts := by rw [hoffer]; rfl
    refine ⟨offer, events, hprice, ?_⟩
    rw [hcounts]
    refine ⟨(knapsack.weigh_bestColumn duals).trans (knapsack.valueAt_chosenWidth hlength),
      knapsack.wayBack_to_zero hlength, knapsack.totalWidth_bestColumn hlength,
      ⟨⟨_, knapsack.isBest_bestColumn hlength, rfl⟩, ?_⟩,
      fun item count dual => knapsack.dual_pos_of_count_pos hlength⟩
    rintro width ⟨counts, hbest, rfl⟩
    rw [knapsack.totalWidth_bestColumn hlength]
    exact knapsack.chosenWidth_le hlength hbest

/-- The greatest value is reached at the width six, below the capacity, and the item with a negative
dual is not used. -/
theorem price_least_width_narrowItems :
    ∃ offer events, narrowItems.price [1, -1, 2] = .ok (offer, events) ∧
      weigh [1, -1, 2] offer.column.counts = 3 ∧ totalWidth [2, 3, 4] offer.column.counts = 6 ∧
      WayBack (narrowItems.table [1, -1, 2]) [2, 3, 4] (6, [0, 0, 0]) (0, offer.column.counts) ∧
      offer.column.counts[1]? ≠ some 1 := by
  have hvalue : valueAt (narrowItems.table [1, -1, 2]) 7 = 3 := by decide +kernel
  have hwidth : narrowItems.chosenWidth (narrowItems.table [1, -1, 2]) = 6 := by decide +kernel
  obtain ⟨-, -, offer, events, hprice, hworth, hwalk, htotal, -, hpositive⟩ :=
    @price_least_width narrowItems [1, -1, 2] rfl
  rw [hwidth] at hwalk htotal
  refine ⟨offer, events, hprice, hworth.trans hvalue, htotal, hwalk, fun hcount => ?_⟩
  have hdual := hpositive 1 1 (-1) hcount Nat.one_pos rfl
  norm_num at hdual

end Knapsack

end PatternCovering
