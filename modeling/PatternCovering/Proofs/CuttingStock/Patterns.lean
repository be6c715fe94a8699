import PatternCovering.Proofs.CuttingStock.Agreement
import Mathlib.Data.Set.Card

/-!
# The patterns of one roll

There are finitely many patterns of one roll, and distinct patterns that each cut an item are fewer
than there are patterns, since the empty pattern is not among them. The patterns with a single piece
are such patterns.
-/

namespace PatternCovering

/-- There are finitely many patterns of positive widths within a capacity. -/
theorem finite_isPattern {widths : List Nat} (hpos : ∀ width ∈ widths, 0 < width) (capacity : Nat) :
    {counts | IsPattern widths capacity counts}.Finite := by
  refine ((List.finite_length_eq (Fin (capacity + 1)) widths.length).image
    (List.map Fin.val)).subset ?_
  rintro counts ⟨hlength, hweigh⟩
  have hle : ∀ count ∈ counts, count ≤ capacity := fun count hcount => by
    exact_mod_cast (count_le_weigh hpos hlength count hcount).trans hweigh
  refine ⟨counts.map (Fin.ofNat (capacity + 1)), by simpa using hlength, ?_⟩
  rw [List.map_map, List.map_congr_left (g := id), List.map_id]
  intro count hcount
  exact Nat.mod_eq_of_lt (Nat.lt_succ_of_le (hle count hcount))

namespace CuttingStock

variable {stock : CuttingStock}

/-- The number of patterns of one roll, the empty one among them. -/
noncomputable def numPatterns (stock : CuttingStock) : Nat :=
  {counts | IsPattern stock.widths stock.capacity counts}.ncard

/-- Distinct patterns that each cut an item are fewer than all patterns. -/
theorem length_lt_numPatterns {known : List (List Nat)} (hnodup : known.Nodup)
    (hpattern : ∀ counts ∈ known, IsPattern stock.widths stock.capacity counts)
    (hused : ∀ counts ∈ known, counts ≠ List.replicate stock.numItems 0) :
    known.length < stock.numPatterns := by
  have hzero := stock.isPattern_zero
  rw [length_widths] at hzero
  have hall : (List.replicate stock.numItems 0 :: known).Nodup :=
    List.nodup_cons.mpr ⟨fun hmem => hused _ hmem rfl, hnodup⟩
  have hsubset : ((List.replicate stock.numItems 0 :: known).toFinset : Set (List Nat)) ⊆
      {counts | IsPattern stock.widths stock.capacity counts} := by
    intro counts hcounts
    rw [Finset.mem_coe, List.mem_toFinset] at hcounts
    rcases List.mem_cons.mp hcounts with rfl | hknown
    · exact hzero
    · exact hpattern counts hknown
  have hcard := Set.ncard_le_ncard hsubset (finite_isPattern stock.widths_pos stock.capacity)
  rw [Set.ncard_coe_finset, List.toFinset_card_of_nodup hall] at hcard
  exact hcard

/-- The column with a single piece is a pattern. -/
theorem isPattern_single {item : Nat} (h : item < stock.numItems) :
    IsPattern stock.widths stock.capacity (Column.single stock.numItems item : Column Rat).counts := by
  refine ⟨by simp [Column.single, length_widths], ?_⟩
  have hset : (List.replicate stock.numItems 0).set item 1 =
      (List.replicate stock.numItems 0).modify item (· + 1) := by
    rw [List.modify_eq_set, List.getElem?_replicate, if_pos h]
    rfl
  have hwidth : (rationals stock.widths).getD item 0 = stock.items[item].width := by
    simp [widths, List.getD_eq_getElem?_getD, List.getElem?_eq_getElem h]
  have hfits : stock.items[item].width ≤ stock.capacity :=
    stock.fits _ (List.getElem_mem _)
  rw [Column.single, hset, weigh_modify (by simpa using h), weigh_replicate_zero, zero_add, hwidth]
  exact_mod_cast hfits

/-- The column with a single piece is not empty. -/
theorem single_ne_zero {numItems item : Nat} (h : item < numItems) :
    (Column.single numItems item : Column Rat).counts ≠ List.replicate numItems 0 := by
  intro heq
  have hcount := congrArg (·[item]?) heq
  simp [Column.single, h] at hcount

/-- Columns with a single piece of different items are different patterns. -/
theorem single_ne_single {numItems item other : Nat} (h : item < numItems) (hne : item ≠ other) :
    (Column.single numItems other : Column Rat).counts ≠
      (Column.single numItems item : Column Rat).counts := by
  intro heq
  have hcount := congrArg (·[item]?) heq
  simp [Column.single, h, hne.symm] at hcount

end CuttingStock

end PatternCovering
