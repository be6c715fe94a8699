import PatternCovering.Column.Pool
import PatternCovering.Proofs.Datum
import Mathlib.Data.List.Nodup
import Mathlib.Data.Set.List

/-!
# Numbered pools

Where columns are added without identifiers or with integers of whatever size and order, the columns of
a pool have distinct integers as identifiers, and the next one is above all of them.
-/

namespace PatternCovering

variable {α : Type}

/-- Whether a column has no identifier yet, or an integer. -/
def Column.HasIntegerId (column : Column α) : Prop :=
  column.id = .null ∨ ∃ id : Int, column.id = .int id

namespace ColumnPool

/-- The next free identifier among integers. -/
theorem idAfter_int (next id : Int) :
    idAfter (.int next) (.int id) = .ok (.int (max next (id + 1))) := by
  have hadd : (Datum.int id).add (.int 1) = .ok (.int (id + 1)) := rfl
  simp only [idAfter, hadd, Datum.lt_int, bind, Except.bind, pure, Except.pure, decide_eq_true_eq]
  split
  · next hlt => rw [Int.max_eq_right (Int.le_of_lt hlt)]
  · next hge => rw [Int.max_eq_left (Int.not_lt.mp hge)]

/-- Whether the columns of a pool have distinct integers as identifiers, all of them below the next
one. -/
structure Numbered (pool : ColumnPool α) : Prop where
  exists_next : ∃ next : Int, pool.nextId = .int next ∧
    ∀ column ∈ pool.columns, ∃ id : Int, column.id = .int id ∧ id < next
  pairwise_id : pool.columns.Pairwise fun left right => left.id.same right.id = false

variable {pool : ColumnPool α} {column : Column α} {id : Int}

/-- A column with a free identifier is added at the end. -/
theorem add_of_free [Quantity α] (hid : column.id = .int id)
    (hfree : ∀ known ∈ pool.columns, known.id.same (.int id) = false) :
    pool.add column = pool.append column := by
  have hnone : pool.find? (.int id) = none := by
    rw [find?, List.find?_eq_none]
    intro known hknown
    simp [hfree known (List.mem_reverse.mp hknown)]
  have hget : pool.get (.int id) = .ok none := by
    rw [get, hnone]
    rfl
  simp only [add, hid, Datum.int] at hget ⊢
  rw [hget]

namespace Numbered

/-- A pool without columns is numbered. -/
theorem empty : Numbered ({} : ColumnPool α) := ⟨⟨0, rfl, by simp⟩, List.Pairwise.nil⟩

/-- An identifier in a numbered pool is the same key as an integer exactly if it is equal to it. -/
theorem same_int_iff (h : pool.Numbered) (hcolumn : column ∈ pool.columns) :
    column.id.same (.int id) = true ↔ column.id = .int id := by
  obtain ⟨next, -, hbelow⟩ := h.exists_next
  obtain ⟨known, hknown, -⟩ := hbelow column hcolumn
  rw [hknown, Datum.same_int, decide_eq_true_eq]
  exact ⟨congrArg Datum.int, fun heq => by simpa [Datum.int] using heq⟩

/-- The identifiers of columns in a numbered pool are the same key exactly if they are equal. -/
theorem same_iff (h : pool.Numbered) {left right : Column α} (hleft : left ∈ pool.columns)
    (hright : right ∈ pool.columns) : left.id.same right.id = true ↔ left.id = right.id := by
  obtain ⟨next, -, hbelow⟩ := h.exists_next
  obtain ⟨other, hother, -⟩ := hbelow right hright
  rw [hother]
  exact h.same_int_iff hleft

/-- The identifiers in a numbered pool are distinct. -/
theorem nodup_id (h : pool.Numbered) : (pool.columns.map (·.id)).Nodup := by
  rw [List.Nodup, List.pairwise_map]
  refine h.pairwise_id.imp_of_mem fun {left right} hleft hright hdiffer heq => ?_
  rw [(h.same_iff hleft hright).mpr heq] at hdiffer
  cases hdiffer

/-- The identifiers of the columns of a numbered pool are distinct integers. -/
theorem exists_ids (h : pool.Numbered) :
    ∃ ids : List Int, pool.columns.map (·.id) = ids.map Datum.int ∧ ids.Nodup := by
  obtain ⟨next, -, hbelow⟩ := h.exists_next
  have hints : pool.columns.map (·.id) ∈ Set.range (List.map Datum.int) := by
    rw [Set.range_list_map]
    intro id hid
    obtain ⟨column, hcolumn, rfl⟩ := List.mem_map.mp hid
    obtain ⟨n, hn, -⟩ := hbelow column hcolumn
    exact ⟨n, hn.symm⟩
  obtain ⟨ids, hids⟩ := hints
  exact ⟨ids, hids.symm, List.Nodup.of_map _ (hids ▸ h.nodup_id)⟩

/-- The column with an identifier is found in a numbered pool. -/
theorem find?_eq_some_iff (h : pool.Numbered) :
    pool.find? (.int id) = some column ↔ column ∈ pool.columns ∧ column.id = .int id := by
  constructor
  · intro hfound
    rw [find?] at hfound
    have hmem := List.mem_reverse.mp (List.mem_of_find?_eq_some hfound)
    have hsame := List.find?_some hfound
    exact ⟨hmem, (h.same_int_iff hmem).mp hsame⟩
  · rintro ⟨hmem, hid⟩
    rw [find?]
    rcases hfound : pool.columns.reverse.find? (·.id.same (.int id)) with - | other
    · rw [List.find?_eq_none] at hfound
      exact absurd ((h.same_int_iff hmem).mpr hid) (hfound column (List.mem_reverse.mpr hmem))
    · have hother := List.mem_reverse.mp (List.mem_of_find?_eq_some hfound)
      have hsame := List.find?_some hfound
      rw [hfound, List.inj_on_of_nodup_map h.nodup_id hother hmem
        (((h.same_int_iff hother).mp hsame).trans hid.symm)]

/-- Nothing is found under an identifier that no column has. -/
theorem find?_eq_none_iff (h : pool.Numbered) :
    pool.find? (.int id) = none ↔ ∀ column ∈ pool.columns, column.id ≠ .int id := by
  rw [Option.eq_none_iff_forall_ne_some]
  exact ⟨fun hnone column hmem hid => hnone column (h.find?_eq_some_iff.mpr ⟨hmem, hid⟩),
    fun hnone column hfound =>
      hnone column (h.find?_eq_some_iff.mp hfound).1 (h.find?_eq_some_iff.mp hfound).2⟩

/-- The next identifier is not yet in use. -/
theorem nextId_free (h : pool.Numbered) (hnext : pool.nextId = .int id) :
    ∀ known ∈ pool.columns, known.id.same (.int id) = false := by
  obtain ⟨next, hsome, hbelow⟩ := h.exists_next
  obtain rfl : next = id := by simpa [Datum.int] using hsome.symm.trans hnext
  intro known hknown
  obtain ⟨other, hother, hlt⟩ := hbelow known hknown
  rw [hother, Datum.same_int]
  exact decide_eq_false (by omega)

/-- A pool puts a column with a free identifier at the end. -/
theorem append [Quantity α] (h : pool.Numbered) (hid : column.id = .int id)
    (hfree : ∀ known ∈ pool.columns, known.id.same (.int id) = false)
    (hkey : Quantity.requireKey column.cost = .ok ()) :
    ∃ nextId, idAfter pool.nextId column.id = .ok nextId ∧
      pool.append column = (⟨pool.columns ++ [column], nextId⟩, .ok column) ∧
      (⟨pool.columns ++ [column], nextId⟩ : ColumnPool α).Numbered := by
  obtain ⟨next, hnext, hbelow⟩ := h.exists_next
  refine ⟨.int (max next (id + 1)), by rw [hid, hnext, idAfter_int], ?_,
    ⟨max next (id + 1), rfl, ?_⟩, ?_⟩
  · rw [ColumnPool.append, hid, hnext, idAfter_int]
    simp [hkey, Except.map]
  · intro known hknown
    rcases List.mem_append.mp hknown with hknown | hknown
    · obtain ⟨other, hother, hlt⟩ := hbelow known hknown
      exact ⟨other, hother, by omega⟩
    · exact ⟨id, List.mem_singleton.mp hknown ▸ hid, by omega⟩
  · refine List.pairwise_append.mpr ⟨h.pairwise_id, List.pairwise_singleton _ _, ?_⟩
    intro known hknown last hlast
    rw [List.mem_singleton.mp hlast, hid]
    exact hfree known hknown

/-- A pool takes a column with a free identifier. -/
theorem add [Quantity α] (h : pool.Numbered) (hid : column.id = .int id)
    (hfree : ∀ known ∈ pool.columns, known.id.same (.int id) = false)
    (hkey : Quantity.requireKey column.cost = .ok ()) :
    ∃ nextId, idAfter pool.nextId column.id = .ok nextId ∧
      pool.add column = (⟨pool.columns ++ [column], nextId⟩, .ok column) ∧
      (⟨pool.columns ++ [column], nextId⟩ : ColumnPool α).Numbered := by
  rw [add_of_free hid hfree]
  exact h.append hid hfree hkey

end Numbered

end ColumnPool

end PatternCovering
