import PatternCovering.Knapsack
import PatternCovering.Proofs.Exact
import Mathlib.Logic.Relation

/-!
# The cells of a knapsack and the way back

The table is filled width by width, each cell from the cells of smaller widths. An item is chosen for
a width only if it fits into it, so that the way back from a width can be walked step by step: the
chosen item is counted and its width taken off, until nothing is left or no item was chosen. What was
counted and what is left add up to the width from which the walk started.

Nothing is assumed about the duals here, so that all of this holds with rounding, infinities and
not-a-number as well.
-/

namespace PatternCovering

/-- The total width of a pattern. -/
def totalWidth (widths counts : List Nat) : Nat := (List.zipWith (· * ·) widths counts).sum

/-- The total width is what a pattern weighs when its items weigh their widths. -/
theorem weigh_rationals (widths counts : List Nat) :
    weigh (rationals widths) counts = totalWidth widths counts := by
  induction widths generalizing counts with
  | nil => rfl
  | cons width widths ih =>
    cases counts with
    | nil => rfl
    | cons count counts =>
      rw [rationals, List.map_cons, weigh_cons, ih, totalWidth, totalWidth]
      simp

/-- A pattern without any item has no width. -/
theorem totalWidth_replicate_zero (widths : List Nat) (numItems : Nat) :
    totalWidth widths (List.replicate numItems 0) = 0 := by
  have hweigh := weigh_replicate_zero (rationals widths) numItems
  rw [weigh_rationals] at hweigh
  exact_mod_cast hweigh

/-- One copy more of an item adds its width. -/
theorem totalWidth_modify {widths counts : List Nat} {item itemWidth : Nat}
    (hwidth : widths[item]? = some itemWidth) (hitem : item < counts.length) :
    totalWidth widths (counts.modify item (· + 1)) = totalWidth widths counts + itemWidth := by
  have hweigh : weigh (rationals widths) (counts.modify item (· + 1)) = _ := weigh_modify hitem
  have hget : (rationals widths).getD item 0 = (itemWidth : Rat) := by
    simp [List.getD_eq_getElem?_getD, hwidth]
  rw [weigh_rationals, weigh_rationals, hget] at hweigh
  exact_mod_cast hweigh

/-- A count is at most what a pattern weighs. -/
theorem count_le_weigh {widths counts : List Nat} (hpos : ∀ width ∈ widths, 0 < width)
    (hlength : counts.length = widths.length) :
    ∀ count ∈ counts, (count : Rat) ≤ weigh (rationals widths) counts := by
  induction widths generalizing counts with
  | nil => simp [List.length_eq_zero_iff.mp hlength]
  | cons width widths ih =>
    cases counts with
    | nil => simp
    | cons first counts =>
      obtain ⟨hwidth, hrest⟩ := List.forall_mem_cons.mp hpos
      have hlater := ih hrest (Nat.succ_injective hlength)
      have hnonneg := weigh_rationals_nonneg widths counts
      have hfirst : (first : Rat) ≤ width * first := by
        have hone : (1 : Rat) ≤ width := by exact_mod_cast hwidth
        exact le_mul_of_one_le_left (Nat.cast_nonneg _) hone
      change ∀ count ∈ first :: counts,
        (count : Rat) ≤ weigh ((width : Rat) :: rationals widths) (first :: counts)
      rw [weigh_cons, List.forall_mem_cons]
      refine ⟨by linarith, fun count hcount => ?_⟩
      have hle := hlater count hcount
      have hmul : (0 : Rat) ≤ width * first := by positivity
      linarith

namespace Knapsack

variable {α : Type} {widths : List Nat} {duals : List α}

/-- The items are listed with their indices, widths and duals. -/
theorem mem_itemsOf {item itemWidth : Nat} {dual : α} :
    (item, itemWidth, dual) ∈ itemsOf widths duals ↔
      widths[item]? = some itemWidth ∧ duals[item]? = some dual := by
  simp only [itemsOf, List.mem_iff_getElem?, List.getElem?_zip_eq_some]
  constructor
  · rintro ⟨place, hitem, hwidth, hdual⟩
    obtain ⟨hlt, heq⟩ := List.getElem?_eq_some_iff.mp hitem
    rw [List.getElem_range] at heq
    subst heq
    exact ⟨hwidth, hdual⟩
  · rintro ⟨hwidth, hdual⟩
    have hlt := (List.getElem?_eq_some_iff.mp hwidth).1
    exact ⟨item, by simp [hlt], hwidth, hdual⟩

section Cells

variable [Quantity α]

/-- A wider table has one cell more. -/
theorem tableOf_succ (widths : List Nat) (duals : List α) (capacity : Nat) :
    tableOf widths duals (capacity + 1) = (tableOf widths duals capacity).push
      (fill (tableOf widths duals capacity) (itemsOf widths duals) (capacity + 1)) := by
  simp only [tableOf]
  rw [List.range_succ, List.foldl_append]
  rfl

/-- A table has a cell for each width up to its capacity. -/
theorem size_tableOf (widths : List Nat) (duals : List α) (capacity : Nat) :
    (tableOf widths duals capacity).size = capacity + 1 := by
  induction capacity with
  | zero => rfl
  | succ capacity ih => rw [tableOf_succ, Array.size_push, ih]

/-- Widening a table keeps its cells. -/
theorem getElem?_tableOf_add (widths : List Nat) (duals : List α) {width capacity : Nat}
    (hwidth : width ≤ capacity) (more : Nat) :
    (tableOf widths duals (capacity + more))[width]? = (tableOf widths duals capacity)[width]? := by
  induction more with
  | zero => rfl
  | succ more ih =>
    have hsize := size_tableOf widths duals (capacity + more)
    have hlt : width < (tableOf widths duals (capacity + more)).size := by omega
    rw [← Nat.add_assoc, tableOf_succ, Array.getElem?_push_lt hlt, ← ih,
      Array.getElem?_eq_getElem hlt]

/-- The cell for no width is that of the empty fill. -/
theorem getElem?_tableOf_zero (widths : List Nat) (duals : List α) (capacity : Nat) :
    (tableOf widths duals capacity)[0]? = some Cell.start := by
  have h := getElem?_tableOf_add widths duals (Nat.le_refl 0) capacity
  rw [Nat.zero_add] at h
  rw [h]
  rfl

/-- Tables that agree on all smaller widths fill a width alike. -/
theorem fill_congr {table other : Array (Cell α)} {items : List (Nat × Nat × α)} {width : Nat}
    (hpos : ∀ entry ∈ items, 0 < entry.2.1)
    (h : ∀ smaller, smaller < width → valueAt table smaller = valueAt other smaller) :
    fill table items width = fill other items width := by
  have hfold : ∀ (items : List (Nat × Nat × α)) (cell : Cell α),
      (∀ entry ∈ items, 0 < entry.2.1) →
      items.foldl (fun cell entry =>
        improve table width cell entry.1 entry.2.1 entry.2.2) cell =
      items.foldl (fun cell entry =>
        improve other width cell entry.1 entry.2.1 entry.2.2) cell := by
    intro items
    induction items with
    | nil => exact fun cell _ => rfl
    | cons entry rest ih =>
      intro cell hentries
      obtain ⟨item, itemWidth, dual⟩ := entry
      have hitem : improve table width cell item itemWidth dual =
          improve other width cell item itemWidth dual := by
        have hwidth : 0 < itemWidth := hentries _ List.mem_cons_self
        simp only [improve]
        split
        · rw [h (width - itemWidth) (by omega)]
        · rfl
      rw [List.foldl_cons, List.foldl_cons]
      simp only [hitem]
      exact ih _ fun other hother => hentries other (List.mem_cons_of_mem _ hother)
  exact hfold items Cell.start hpos

/-- The cell for a positive width is filled from the cells of the same table for smaller widths. -/
theorem getElem?_tableOf (hpos : ∀ width ∈ widths, 0 < width) {width capacity : Nat}
    (hwidth : width + 1 ≤ capacity) :
    (tableOf widths duals capacity)[width + 1]? =
      some (fill (tableOf widths duals capacity) (itemsOf widths duals) (width + 1)) := by
  obtain ⟨more, rfl⟩ : ∃ more, capacity = width + 1 + more := ⟨capacity - (width + 1), by omega⟩
  rw [getElem?_tableOf_add widths duals (Nat.le_refl _), tableOf_succ]
  have hsize := size_tableOf widths duals width
  rw [← hsize, Array.getElem?_push_size, hsize]
  refine congrArg some (fill_congr (fun entry hentry => ?_) fun smaller hsmaller => ?_)
  · obtain ⟨item, itemWidth, dual⟩ := entry
    exact hpos itemWidth (List.mem_of_getElem? (mem_itemsOf.mp hentry).1)
  · have hstable := getElem?_tableOf_add widths duals (Nat.le_of_lt_succ hsmaller) (1 + more)
    rw [← Nat.add_assoc] at hstable
    simp only [valueAt, hstable]

end Cells

section Choices

variable [Quantity α]

/-- An item is chosen for a width only if it is one of the items and fits into the width. -/
theorem of_choice_fill {table : Array (Cell α)} {items : List (Nat × Nat × α)} {width item : Nat}
    (h : (fill table items width).choice = some item) :
    ∃ itemWidth dual, (item, itemWidth, dual) ∈ items ∧ itemWidth ≤ width := by
  have hfold : ∀ (rest : List (Nat × Nat × α)) (cell : Cell α), (∀ entry ∈ rest, entry ∈ items) →
      (∀ other ∈ cell.choice, ∃ itemWidth dual,
        (other, itemWidth, dual) ∈ items ∧ itemWidth ≤ width) →
      ∀ other ∈ (rest.foldl (fun cell entry =>
        improve table width cell entry.1 entry.2.1 entry.2.2) cell).choice,
        ∃ itemWidth dual, (other, itemWidth, dual) ∈ items ∧ itemWidth ≤ width := by
    intro rest
    induction rest with
    | nil => exact fun cell _ hcell => hcell
    | cons entry rest ih =>
      intro cell hrest hcell
      obtain ⟨tried, triedWidth, dual⟩ := entry
      obtain ⟨hentry, hrest⟩ := List.forall_mem_cons.mp hrest
      refine ih _ hrest fun other hother => ?_
      simp only [improve] at hother
      split at hother
      · next hfits =>
        split at hother
        · rw [Option.mem_some_iff] at hother
          exact ⟨triedWidth, dual, hother ▸ hentry, hfits⟩
        · exact hcell other hother
      · exact hcell other hother
  exact hfold items Cell.start (fun _ hentry => hentry) (by simp [Cell.start]) item h

/-- Whether every item that is chosen for a width exists and fits into it. -/
def ChoicesFit (table : Array (Cell α)) (widths : List Nat) : Prop :=
  ∀ (width : Nat) cell item, table[width]? = some cell → cell.choice = some item →
    ∃ itemWidth, widths[item]? = some itemWidth ∧ itemWidth ≤ width

/-- The items that are chosen in a table fit. -/
theorem choicesFit_tableOf (duals : List α) (hpos : ∀ width ∈ widths, 0 < width) (capacity : Nat) :
    ChoicesFit (tableOf widths duals capacity) widths := by
  intro width cell item hcell hchoice
  cases width with
  | zero =>
    rw [getElem?_tableOf_zero, Option.some.injEq] at hcell
    rw [← hcell] at hchoice
    cases hchoice
  | succ width =>
    have hlt := (Array.getElem?_eq_some_iff.mp hcell).1
    rw [size_tableOf] at hlt
    rw [getElem?_tableOf hpos (Nat.le_of_lt_succ hlt), Option.some.injEq] at hcell
    rw [← hcell] at hchoice
    obtain ⟨itemWidth, dual, hmem, hfits⟩ := of_choice_fill hchoice
    exact ⟨itemWidth, (mem_itemsOf.mp hmem).1, hfits⟩

end Choices

section WayBack

variable {table : Array (Cell α)}

/-- One step of the way back, from a width and the counts so far: the item that was chosen for the
width is counted and its width is taken off. The cell, the item and its count are there, and no more
is taken off than there is. -/
inductive Back (table : Array (Cell α)) (widths : List Nat) :
    Nat × List Nat → Nat × List Nat → Prop
  | step {width item itemWidth : Nat} {counts : List Nat} {cell : Cell α} (hwidth : 0 < width)
    (hcell : table[width]? = some cell) (hchoice : cell.choice = some item)
    (hitem : widths[item]? = some itemWidth) (hfits : itemWidth ≤ width)
    (hcount : item < counts.length) :
    Back table widths (width, counts) (width - itemWidth, counts.modify item (· + 1))

/-- A walk of some steps on the way back. -/
abbrev WayBack (table : Array (Cell α)) (widths : List Nat) :
    Nat × List Nat → Nat × List Nat → Prop :=
  Relation.ReflTransGen (Back table widths)

/-- Whether the way back ends at a width: nothing is left, or no item was chosen for it. -/
def WayEnds (table : Array (Cell α)) (width : Nat) : Prop :=
  width = 0 ∨ ∃ cell, table[width]? = some cell ∧ cell.choice = none

/-- A step keeps what was counted and what is left together, and the number of counts. -/
theorem Back.keeps {before after : Nat × List Nat} (h : Back table widths before after) :
    totalWidth widths after.2 + after.1 = totalWidth widths before.2 + before.1 ∧
      after.2.length = before.2.length := by
  cases h with
  | step hwidth hcell hchoice hitem hfits hcount =>
    refine ⟨?_, by simp⟩
    rw [totalWidth_modify hitem hcount]
    dsimp only
    omega

/-- A walk keeps what was counted and what is left together, and the number of counts. -/
theorem wayBack_keeps {before after : Nat × List Nat} (h : WayBack table widths before after) :
    totalWidth widths after.2 + after.1 = totalWidth widths before.2 + before.1 ∧
      after.2.length = before.2.length := by
  induction h with
  | refl => exact ⟨rfl, rfl⟩
  | tail _ hstep ih => exact ⟨hstep.keeps.1.trans ih.1, hstep.keeps.2.trans ih.2⟩

/-- Unwinding walks the way back to its end, if as many steps are allowed as the width has units. -/
theorem wayBack_unwind (hpos : ∀ width ∈ widths, 0 < width) (hfit : ChoicesFit table widths)
    {steps width : Nat} {counts : List Nat} (hsteps : width ≤ steps) (hwidth : width < table.size)
    (hcounts : counts.length = widths.length) :
    ∃ last, WayBack table widths (width, counts) (last, unwind table widths steps width counts) ∧
      WayEnds table last := by
  induction steps generalizing width counts with
  | zero => exact ⟨width, Relation.ReflTransGen.refl, Or.inl (Nat.le_zero.mp hsteps)⟩
  | succ steps ih =>
    rw [unwind]
    by_cases hnone : width = 0
    · rw [if_pos hnone]
      exact ⟨width, Relation.ReflTransGen.refl, Or.inl hnone⟩
    · have hcell : table[width]? = some table[width] := Array.getElem?_eq_getElem hwidth
      rw [if_neg hnone, hcell, Option.bind_some]
      rcases hchoice : table[width].choice with - | item
      · exact ⟨width, Relation.ReflTransGen.refl, Or.inr ⟨_, hcell, hchoice⟩⟩
      · obtain ⟨itemWidth, hitem, hfits⟩ := hfit width _ item hcell hchoice
        have hwide := hpos itemWidth (List.mem_of_getElem? hitem)
        have hcount : item < counts.length := by
          rw [hcounts]
          exact (List.getElem?_eq_some_iff.mp hitem).1
        have hmodified : (counts.modify item (· + 1)).length = widths.length := by
          simpa using hcounts
        have hsmaller : width - itemWidth ≤ steps := by omega
        obtain ⟨last, hwalk, hends⟩ := ih hsmaller (by omega) hmodified
        simp only [hitem, Option.getD_some]
        exact ⟨last, hwalk.head (Back.step (Nat.pos_of_ne_zero hnone) hcell hchoice hitem hfits
          hcount), hends⟩

/-- A step of the way back is determined by where it starts. -/
theorem back_rightUnique : Relator.RightUnique (Back table widths) := by
  intro before after other hafter hother
  cases hafter with
  | step _ hcell hchoice hitem _ _ =>
    cases hother with
    | step _ hcell' hchoice' hitem' _ _ =>
      rw [hcell, Option.some.injEq] at hcell'
      rw [← hcell', hchoice, Option.some.injEq] at hchoice'
      rw [← hchoice', hitem, Option.some.injEq] at hitem'
      rw [hchoice', hitem']

/-- Where the way back ends, there is no step. -/
theorem WayEnds.not_back {last : Nat} (h : WayEnds table last) {counts : List Nat}
    {after : Nat × List Nat} : ¬ Back table widths (last, counts) after := by
  intro hstep
  cases hstep with
  | step hwidth hcell hchoice _ _ _ =>
    rcases h with rfl | ⟨cell, hlast, hnone⟩
    · exact Nat.lt_irrefl 0 hwidth
    · rw [hlast, Option.some.injEq] at hcell
      rw [← hcell, hnone] at hchoice
      cases hchoice

/-- The way back leads to its end from each place that is on it. -/
theorem wayBack_to_end {start place : Nat × List Nat} {last : Nat} {counts : List Nat}
    (hwalk : WayBack table widths start (last, counts)) (hends : WayEnds table last)
    (hplace : WayBack table widths start place) : WayBack table widths place (last, counts) := by
  rcases Relation.ReflTransGen.total_of_right_unique back_rightUnique hwalk hplace with hon | hon
  · -- no step leads on from the end
    rcases Relation.ReflTransGen.cases_head hon with heq | ⟨next, hstep, -⟩
    · exact heq ▸ Relation.ReflTransGen.refl
    · exact absurd hstep hends.not_back
  · exact hon

end WayBack

section Best

variable [Quantity α]

/-- A wider table has the best width of the narrower one, unless its last cell is better. -/
theorem bestWidth_succ (table : Array (Cell α)) (capacity : Nat) :
    bestWidth table (capacity + 1) =
      if Quantity.lt (valueAt table (bestWidth table capacity)) (valueAt table (capacity + 1)) then
        capacity + 1
      else bestWidth table capacity := by
  simp only [bestWidth]
  rw [List.range_succ, List.foldl_append]
  rfl

/-- The best width is within the capacity. -/
theorem bestWidth_le (table : Array (Cell α)) (capacity : Nat) :
    bestWidth table capacity ≤ capacity := by
  induction capacity with
  | zero => exact Nat.le_refl 0
  | succ capacity ih =>
    rw [bestWidth_succ]
    split
    · exact Nat.le_refl _
    · exact Nat.le_succ_of_le ih

end Best

section Offered

variable [Quantity α] (knapsack : Knapsack α)

/-- The column that is offered for duals. -/
def bestColumn (duals : List α) : Column α :=
  knapsack.columnAt (knapsack.table duals) (knapsack.chosenWidth (knapsack.table duals))

/-- The way back from the best width leads to the offered pattern. -/
theorem wayBack_bestColumn (duals : List α) :
    ∃ last, WayBack (knapsack.table duals) knapsack.widths
        (knapsack.chosenWidth (knapsack.table duals), List.replicate knapsack.numItems 0)
        (last, (knapsack.bestColumn duals).counts) ∧
      WayEnds (knapsack.table duals) last := by
  refine wayBack_unwind knapsack.widths_pos
    (choicesFit_tableOf duals knapsack.widths_pos knapsack.capacity) (Nat.le_refl _) ?_
    List.length_replicate
  rw [table, size_tableOf]
  exact Nat.lt_succ_of_le (bestWidth_le _ _)

/-- The offered pattern has a count for each item and fits into the best width. -/
theorem bestColumn_fits (duals : List α) :
    (knapsack.bestColumn duals).counts.length = knapsack.numItems ∧
      totalWidth knapsack.widths (knapsack.bestColumn duals).counts ≤
        knapsack.chosenWidth (knapsack.table duals) := by
  obtain ⟨last, hwalk, -⟩ := knapsack.wayBack_bestColumn duals
  obtain ⟨hwidth, hlength⟩ := wayBack_keeps hwalk
  rw [totalWidth_replicate_zero, Nat.zero_add] at hwidth
  rw [List.length_replicate] at hlength
  exact ⟨hlength, Nat.le.intro hwidth⟩

/-- The best column is offered at its reduced cost, if that can be told. -/
theorem price_eq {given duals : List α}
    (hread : readDuals (knapsack.numItems : Int) given = .ok duals) :
    knapsack.price given = ((knapsack.bestColumn duals).reducedCostUnder duals).map
      fun reducedCost => (Offer.ofColumn (knapsack.bestColumn duals) reducedCost .optimal,
        [.knapsackFilled
          (Quantity.report
            (valueAt (knapsack.table duals) (knapsack.chosenWidth (knapsack.table duals))))
          (knapsack.chosenWidth (knapsack.table duals)) (knapsack.bestColumn duals).pattern]) := by
  rw [price, hread, bestColumn]
  rfl

/-- What is offered for duals is the best column at its reduced cost. -/
theorem of_price {given duals : List α} {offer : Offer α} {events : List Event}
    (hread : readDuals (knapsack.numItems : Int) given = .ok duals)
    (h : knapsack.price given = .ok (offer, events)) :
    ∃ reducedCost, (knapsack.bestColumn duals).reducedCostUnder duals = .ok reducedCost ∧
      offer = Offer.ofColumn (knapsack.bestColumn duals) reducedCost .optimal := by
  rw [knapsack.price_eq hread] at h
  rcases hreduced : (knapsack.bestColumn duals).reducedCostUnder duals with fault | reducedCost
  · rw [hreduced] at h
    cases h
  · rw [hreduced, Except.map, Except.ok.injEq, Prod.mk.injEq] at h
    exact ⟨reducedCost, rfl, h.1.symm⟩

/-- Where there is room for the table, the room makes no difference to what is offered. -/
theorem priceInRoom_eq {room : Nat} (hroom : knapsack.requireRoom room = .ok ()) (given : List α) :
    knapsack.priceInRoom room given = knapsack.price given := by
  rcases hread : readDuals (knapsack.numItems : Int) given with fault | duals
  · simp [priceInRoom, price, hread, bind, Except.bind]
  · simp [priceInRoom, hread, hroom, bind, Except.bind]

/-- Whatever the room, only the offer of the knapsack is made. -/
theorem price_of_priceInRoom {room : Nat} {given : List α} {answer : Offer α × List Event}
    (h : knapsack.priceInRoom room given = .ok answer) : knapsack.price given = .ok answer := by
  obtain ⟨_, -, h⟩ := bind_eq_ok.mp h
  obtain ⟨_, -, h⟩ := bind_eq_ok.mp h
  exact h

end Offered

end Knapsack

end PatternCovering
