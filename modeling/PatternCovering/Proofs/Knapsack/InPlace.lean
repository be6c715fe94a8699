import PatternCovering.Proofs.Double.Numbers
import PatternCovering.Proofs.Knapsack.Cells

/-!
# Filling the cells in place

The table can be kept in one array that has its full length from the start, with the cell of the
empty fill for each width that is still to come; trying an item for a width reads and writes that
array. Here each look-up may fail: of an item, of its dual, and of a cell. None does. While a width is
filled, the array is the finished table for the smaller widths, the cell of the width, and untouched
cells, and an item leaves of the width one that is finished. That needs the widths to be positive and
a dual for each item, and nothing about what sums and comparisons of duals give.
-/

namespace PatternCovering.Knapsack

variable {α : Type} [Quantity α]

/-- An item is tried for a width, if the item, its dual and the cells that are read and written are
there. -/
def tryItem? (widths : List Nat) (duals : List α) (width : Nat) (cells : Array (Cell α))
    (item : Nat) : Option (Array (Cell α)) := do
  let itemWidth ← widths[item]?
  if itemWidth ≤ width then
    let left ← cells[width - itemWidth]?
    let dual ← duals[item]?
    let cell ← cells[width]?
    let value := Quantity.add left.value dual
    if Quantity.lt cell.value value then
      if h : width < cells.size then some (cells.set width ⟨value, some item⟩ h) else none
    else some cells
  else some cells

/-- All items are tried for a width. -/
def fillWidth? (widths : List Nat) (duals : List α) (cells : Array (Cell α)) (width : Nat) :
    Option (Array (Cell α)) :=
  (List.range widths.length).foldlM (tryItem? widths duals width) cells

/-- The cells are filled from the smallest width on. -/
def fillInPlace? (widths : List Nat) (duals : List α) (capacity : Nat) : Option (Array (Cell α)) :=
  (List.range capacity).foldlM (fun cells width => fillWidth? widths duals cells (width + 1))
    (Array.replicate (capacity + 1) Cell.start)

/-- The smallest width with the best value, if the cells are there. -/
def bestWidth? (cells : Array (Cell α)) (capacity : Nat) : Option Nat :=
  (List.range capacity).foldlM (fun best width => do
    let next ← cells[width + 1]?
    let cell ← cells[best]?
    return if Quantity.lt cell.value next.value then width + 1 else best) 0

variable {widths : List Nat} {duals : List α}

/-- Trying an item improves the cell of the width and leaves the other cells. -/
theorem tryItem?_eq (hpos : ∀ width ∈ widths, 0 < width) {table rest : Array (Cell α)}
    {cell : Cell α} {item itemWidth : Nat} {dual : α} (hitem : widths[item]? = some itemWidth)
    (hdual : duals[item]? = some dual) :
    tryItem? widths duals table.size (table.push cell ++ rest) item =
      some (table.push (improve table table.size cell item itemWidth dual) ++ rest) := by
  have hwide := hpos itemWidth (List.mem_of_getElem? hitem)
  have hhere : (table.push cell ++ rest)[table.size]? = some cell := by
    simp [Array.getElem?_append]
  rw [tryItem?, improve, hitem, hhere, hdual]
  simp only [Option.bind_eq_bind, Option.bind_some]
  by_cases hfits : itemWidth ≤ table.size
  · have hlt : table.size - itemWidth < table.size := by omega
    have hleft : (table.push cell ++ rest)[table.size - itemWidth]? =
        some table[table.size - itemWidth] := by
      rw [Array.getElem?_append_left (by simp),
        Array.getElem?_push_lt hlt]
    have hvalue : valueAt table (table.size - itemWidth) =
        table[table.size - itemWidth].value := by
      simp [valueAt, hlt]
    rw [if_pos hfits, if_pos hfits, hleft, hvalue]
    simp only [Option.bind_some]
    split
    · rw [dif_pos (by simp; omega), Array.set_append_left (by simp), Array.set_push,
        dif_neg (Nat.lt_irrefl _)]
    · rfl
  · rw [if_neg hfits, if_neg hfits]

/-- Filling a width adds its cell to the table, in the place of the first untouched one. -/
theorem fillWidth?_eq (hpos : ∀ width ∈ widths, 0 < width) (hlength : duals.length = widths.length)
    (table rest : Array (Cell α)) :
    fillWidth? widths duals (table.push Cell.start ++ rest) table.size =
      some (table.push (fill table (itemsOf widths duals) table.size) ++ rest) := by
  have hfold : ∀ (items : List (Nat × Nat × α)) (cell : Cell α),
      (∀ entry ∈ items, entry ∈ itemsOf widths duals) →
      (items.map (·.1)).foldlM (tryItem? widths duals table.size) (table.push cell ++ rest) =
        some (table.push (items.foldl (fun cell entry =>
          improve table table.size cell entry.1 entry.2.1 entry.2.2) cell) ++ rest) := by
    intro items
    induction items with
    | nil => exact fun cell _ => rfl
    | cons entry items ih =>
      intro cell hitems
      obtain ⟨item, itemWidth, dual⟩ := entry
      obtain ⟨hitem, hdual⟩ := mem_itemsOf.mp (hitems _ List.mem_cons_self)
      rw [List.map_cons, List.foldlM_cons, tryItem?_eq hpos hitem hdual]
      exact ih _ fun other hother => hitems other (List.mem_cons_of_mem _ hother)
  have hindices : (itemsOf widths duals).map (·.1) = List.range widths.length := by
    rw [itemsOf, List.map_fst_zip (by simp [hlength])]
  rw [fillWidth?, ← hindices]
  exact hfold _ Cell.start fun _ hentry => hentry

/-- Filling the cells in place never misses one, and gives the table. -/
theorem fillInPlace?_eq (hpos : ∀ width ∈ widths, 0 < width)
    (hlength : duals.length = widths.length) (capacity : Nat) :
    fillInPlace? widths duals capacity = some (tableOf widths duals capacity) := by
  have hcons : ∀ left, Array.replicate (left + 1) (Cell.start : Cell α) =
      #[Cell.start] ++ Array.replicate left Cell.start := fun left => by
    rw [← Array.toList_inj]
    simp [List.replicate_succ]
  -- the widths up to `done` are filled, and as many cells as are left are untouched
  have hfold : ∀ done left, (List.range done).foldlM
      (fun cells width => fillWidth? widths duals cells (width + 1))
      (Array.replicate (done + left + 1) (Cell.start : Cell α)) =
        some (tableOf widths duals done ++ Array.replicate left Cell.start) := by
    intro done
    induction done with
    | zero =>
      intro left
      rw [Nat.zero_add, hcons]
      rfl
    | succ done ih =>
      intro left
      have hfilled := fillWidth?_eq hpos hlength (tableOf widths duals done)
        (Array.replicate left Cell.start)
      rw [size_tableOf, ← tableOf_succ] at hfilled
      rw [show done + 1 + left + 1 = done + (left + 1) + 1 by omega, List.range_succ,
        List.foldlM_append, ih (left + 1), hcons, ← Array.append_assoc, ← Array.push_eq_append]
      simpa using hfilled
  have hall := hfold capacity 0
  rw [Array.replicate_zero, Array.append_empty] at hall
  exact hall

/-- Looking for the best width never misses a cell. -/
theorem bestWidth?_eq {cells : Array (Cell α)} {capacity : Nat} (hsize : cells.size = capacity + 1) :
    bestWidth? cells capacity = some (bestWidth cells capacity) := by
  have hfold : ∀ done, done ≤ capacity → bestWidth? cells done = some (bestWidth cells done) := by
    intro done
    induction done with
    | zero => exact fun _ => rfl
    | succ done ih =>
      intro hdone
      have hbest := bestWidth_le cells done
      have hvalue : ∀ width, width ≤ capacity → ∃ cell, cells[width]? = some cell ∧
          valueAt cells width = cell.value := fun width hwidth => by
        have hlt : width < cells.size := by omega
        exact ⟨cells[width], by simp [hlt], by simp [valueAt, hlt]⟩
      obtain ⟨next, hnext, hnextValue⟩ := hvalue (done + 1) hdone
      obtain ⟨cell, hcell, hcellValue⟩ := hvalue (bestWidth cells done) (by omega)
      have hih := ih (by omega)
      simp only [bestWidth?] at hih ⊢
      rw [List.range_succ, List.foldlM_append, hih, bestWidth_succ, hnextValue, hcellValue]
      simp [hnext, hcell]
  exact hfold capacity (Nat.le_refl _)

/-- No count of the offered pattern is above the capacity. -/
theorem count_le_capacity (knapsack : Knapsack α) (duals : List α) {count : Nat}
    (h : count ∈ (knapsack.bestColumn duals).counts) : count ≤ knapsack.capacity := by
  obtain ⟨hlength, hwidth⟩ := knapsack.bestColumn_fits duals
  have hcount := count_le_weigh knapsack.widths_pos hlength count h
  rw [weigh_rationals, Nat.cast_le] at hcount
  exact (hcount.trans hwidth).trans (bestWidth_le _ _)

/-- Pricing a knapsack is safe whatever the sums and comparisons of the duals are. The cells are
filled in place and the best width is found without missing an item, a dual or a cell; an item is
chosen for a width only if it fits into it; and the way back from the best width comes to its end, each
step of it counting an item that is there and taking off no more than there is. The counts at the end
are those of the offered pattern, which is within the capacity. An offer is made where the cost of a
pattern is a number and real numbers can be multiplied by counts up to the capacity. -/
theorem price_safe (knapsack : Knapsack α) {given duals : List α}
    (hread : readDuals (knapsack.numItems : Int) given = .ok duals) :
    fillInPlace? knapsack.widths duals knapsack.capacity = some (knapsack.table duals) ∧
    bestWidth? (knapsack.table duals) knapsack.capacity =
      some (knapsack.chosenWidth (knapsack.table duals)) ∧
    ChoicesFit (knapsack.table duals) knapsack.widths ∧
    ∃ last counts,
      WayBack (knapsack.table duals) knapsack.widths
        (knapsack.chosenWidth (knapsack.table duals), List.replicate knapsack.numItems 0)
        (last, counts) ∧
      WayEnds (knapsack.table duals) last ∧
      (∀ place, WayBack (knapsack.table duals) knapsack.widths
        (knapsack.chosenWidth (knapsack.table duals), List.replicate knapsack.numItems 0) place →
          WayBack (knapsack.table duals) knapsack.widths place (last, counts)) ∧
      counts.length = knapsack.numItems ∧
      totalWidth knapsack.widths counts ≤ knapsack.capacity ∧
      (∀ offer events, knapsack.price given = .ok (offer, events) →
        offer.column.counts = counts) ∧
      (∀ [Numeric α], Numeric.IsNumber knapsack.settings.unitCost →
        Numeric.CountsUpTo α knapsack.capacity →
          ∃ offer events, knapsack.price given = .ok (offer, events)) ∧
      (∀ room, knapsack.requireRoom room = .ok () →
        knapsack.priceInRoom room given = knapsack.price given) := by
  have hlength : duals.length = knapsack.widths.length := by
    exact_mod_cast length_of_readDuals hread
  obtain ⟨last, hwalk, hends⟩ := knapsack.wayBack_bestColumn duals
  obtain ⟨hcounts, hwidth⟩ := knapsack.bestColumn_fits duals
  refine ⟨fillInPlace?_eq knapsack.widths_pos hlength _, bestWidth?_eq (size_tableOf _ _ _),
    choicesFit_tableOf duals knapsack.widths_pos _, last, (knapsack.bestColumn duals).counts, hwalk,
    hends, fun place => wayBack_to_end hwalk hends, hcounts, hwidth.trans (bestWidth_le _ _),
    fun offer events hprice => ?_, fun hcost hmost => ?_,
    fun room hroom => knapsack.priceInRoom_eq hroom given⟩
  · obtain ⟨reducedCost, -, rfl⟩ := knapsack.of_price hread hprice
    rfl
  · obtain ⟨reducedCost, hreduced⟩ := Numeric.reducedCostUnder_ok hmost
      (hlength.trans hcounts.symm) (Numeric.isReal_of_readDuals hread)
      (fun count => knapsack.count_le_capacity duals) hcost
    rw [knapsack.price_eq hread, hreduced]
    exact ⟨_, _, rfl⟩

/-- Items of the widths two and three and a capacity of seven, in plain data. -/
def plainItems : Knapsack Datum :=
  { widths := [2, 3], capacity := 7, settings := ⟨.int 1, .int 0, true⟩, widths_pos := by decide }

/-- One dual is not a number and the other is infinite: an item of infinite value is found at the
width three, and the pattern fits. -/
theorem price_safe_plainItems :
    fillInPlace? [2, 3] [.float (0.0 / 0.0), .float (1.0 / 0.0)] 7 =
        some (plainItems.table [.float (0.0 / 0.0), .float (1.0 / 0.0)]) ∧
      bestWidth? (plainItems.table [.float (0.0 / 0.0), .float (1.0 / 0.0)]) 7 = some 3 ∧
      ∃ offer events,
        plainItems.priceInRoom 8 [.float (0.0 / 0.0), .float (1.0 / 0.0)] = .ok (offer, events) ∧
        offer.column.counts.length = 2 ∧ totalWidth [2, 3] offer.column.counts ≤ 7 := by
  have hchosen : plainItems.chosenWidth
      (plainItems.table [.float (0.0 / 0.0), .float (1.0 / 0.0)]) = 3 := by decide +kernel
  have hcost : Numeric.IsNumber plainItems.settings.unitCost := ⟨.int 1, rfl, by decide⟩
  obtain ⟨hfilled, hbest, -, last, counts, -, -, -, hlength, hwidth, hcounts, hoffer, hroom⟩ :=
    @price_safe Datum _ plainItems [.float (0.0 / 0.0), .float (1.0 / 0.0)]
      [.float (0.0 / 0.0), .float (1.0 / 0.0)] rfl
  rw [hchosen] at hbest
  obtain ⟨offer, events, hprice⟩ := hoffer hcost (Numeric.countsUpTo_datum (by decide))
  refine ⟨hfilled, hbest, offer, events, (hroom 8 rfl).trans hprice, ?_⟩
  rw [hcounts offer events hprice]
  exact ⟨hlength, hwidth⟩

end PatternCovering.Knapsack
