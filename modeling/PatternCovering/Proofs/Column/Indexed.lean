import PatternCovering.Proofs.Column.Pool
import PatternCovering.Proofs.Double.Values
import PatternCovering.Proofs.Failure

/-!
# Pools with an index of their columns

A pool finds columns by going along them. Kept beside it, the places of the columns under their
identifiers and the counts and costs that occur can be asked instead, and then four parts have to stay
in step: the columns, the places, the counts and costs, and the next identifier. Here they are changed
one after the other, and what was changed before a refusal stays changed.

Whatever columns are added, without identifiers or with integers: an identifier finds the one column
that has it, the next identifier is free, and a refused column has changed nothing. Where costs are
numbers other than not-a-number, a column is known exactly if an equal one is there. Without the index
this is the pool of the operations, which give the same answers.
-/

namespace PatternCovering

namespace Datum

/-- Numbers are the same key exactly if their values are equal. -/
theorem same_iff_value {a b : Datum} {p q : Extended} (ha : a.value? = some p)
    (hb : b.value? = some q) : a.same b = true ↔ p = q := by
  cases a with
  | number m =>
    cases b with
    | number n =>
      rw [Datum.same, Number.same.eq_def]
      split
      · cases ha
      · exact Number.eq_iff ha hb
    | null | text | list | record => cases hb
  | null | text | list | record => cases ha

/-- Numbers are equal exactly if their values are. -/
theorem eq_iff_value {a b : Datum} {p q : Extended} (ha : a.value? = some p)
    (hb : b.value? = some q) : a.eq b = true ↔ p = q := by
  cases a with
  | number m =>
    cases b with
    | number n => exact Number.eq_iff ha hb
    | null | text | list | record => cases hb
  | null | text | list | record => cases ha

end Datum

/-- Whether the cost of a column is a number and not not-a-number. -/
def Column.HasValuedCost (column : Column Datum) : Prop := ∃ value, column.cost.value? = some value

/-- A cost that is a number can be a key. -/
theorem Column.HasValuedCost.requireKey {column : Column Datum} (h : column.HasValuedCost) :
    Quantity.requireKey column.cost = .ok () := by
  obtain ⟨value, hvalue⟩ := h
  cases hdatum : column.cost with
  | number n => rfl
  | null | text | list | record =>
    rw [hdatum] at hvalue
    cases hvalue

/-- Columns at costs that are numbers are the same in a pool exactly if they are equal. -/
theorem Column.same_eq_equal {left right : Column Datum} (hleft : left.HasValuedCost)
    (hright : right.HasValuedCost) : left.same right = left.equal right := by
  obtain ⟨p, hp⟩ := hleft
  obtain ⟨q, hq⟩ := hright
  have hcost : Quantity.same left.cost right.cost = Quantity.eq left.cost right.cost :=
    Bool.eq_iff_iff.mpr ((Datum.same_iff_value hp hq).trans (Datum.eq_iff_value hp hq).symm)
  rw [Column.same, Column.equal, hcost]

namespace ColumnPool

/-- The pool after some columns have been added one after the other, refused ones left out. -/
def addAll {α : Type} [Quantity α] (pool : ColumnPool α) (columns : List (Column α)) :
    ColumnPool α :=
  columns.foldl (fun pool column => (pool.add column).1) pool

/-- A pool with the places of its columns under their identifiers, and with the counts and costs that
occur in it. -/
structure Indexed (α : Type) extends ColumnPool α where
  index : Table Nat := []
  patterns : List (List Nat × α) := []

namespace Indexed

variable {α : Type} [Quantity α]

/-- Whether counts and costs are the same key. -/
def samePattern (left right : List Nat × α) : Bool :=
  left.1 == right.1 && Quantity.same left.2 right.2

/-- Some counts and costs with further ones, unless these are among them. -/
def insertPattern (patterns : List (List Nat × α)) (pattern : List Nat × α) :
    List (List Nat × α) :=
  if patterns.any (samePattern · pattern) then patterns else patterns ++ [pattern]

/-- Puts a column with an identifier at the end: the next identifier, the columns, their places and
the counts and costs are changed in this order. -/
def store (pool : Indexed α) (column : Column α) : Indexed α × Except Fault (Column α) :=
  match idAfter pool.nextId column.id with
  | .error fault => (pool, .error fault)
  | .ok nextId =>
    let counted := { pool with nextId }
    let place := counted.columns.length
    let longer := { counted with columns := counted.columns ++ [column] }
    match Table.insert longer.index column.id place with
    | .error fault => (longer, .error fault)
    | .ok index =>
      let placed := { longer with index }
      match Quantity.requireKey column.cost with
      | .error fault => (placed, .error fault)
      | .ok _ =>
        ({ placed with patterns := insertPattern placed.patterns (column.counts, column.cost) },
          .ok column)

/-- Adds a column under its own identifier, which is looked up in the index, or under the next free one
if it has none, and gives the column as stored. -/
def add (pool : Indexed α) (column : Column α) : Indexed α × Except Fault (Column α) :=
  match column.id with
  | .null => pool.store { column with id := pool.nextId }
  | id =>
    match Table.get pool.index id with
    | .error fault => (pool, .error fault)
    | .ok (some _) => (pool, .error (.idTaken id))
    | .ok none => pool.store column

/-- The pool after some columns have been added one after the other, refused ones left out. -/
def addAll (pool : Indexed α) (columns : List (Column α)) : Indexed α :=
  columns.foldl (fun pool column => (pool.add column).1) pool

/-- The column at the place that the index has for an identifier. -/
def get (pool : Indexed α) (id : Datum) : Except Fault (Option (Column α)) := do
  match ← Table.get pool.index id with
  | none => return none
  | some place => return some (← Position.entry pool.columns (place : Int))

/-- Whether the counts and the cost of a column occur in the pool. -/
def contains (pool : Indexed α) (column : Column α) : Except Fault Bool := do
  Quantity.requireKey column.cost
  return pool.patterns.any (samePattern · (column.counts, column.cost))

section Patterns

variable {patterns : List (List Nat × α)} {pattern other : List Nat × α}

/-- What is among counts and costs with further ones was among them before, or is the further ones. -/
theorem mem_insertPattern (h : other ∈ insertPattern patterns pattern) :
    other ∈ patterns ∨ other = pattern := by
  rw [insertPattern] at h
  split at h
  · exact Or.inl h
  · exact (List.mem_append.mp h).imp_right List.mem_singleton.mp

/-- Counts and costs stay when further ones are put in. -/
theorem subset_insertPattern (patterns : List (List Nat × α)) (pattern : List Nat × α) :
    patterns ⊆ insertPattern patterns pattern := by
  rw [insertPattern]
  split
  · exact List.Subset.refl _
  · exact List.subset_append_left _ _

/-- Counts and costs that are put in are then the same as some that are there. -/
theorem exists_same_insertPattern (patterns : List (List Nat × α))
    (hself : samePattern pattern pattern = true) :
    ∃ other ∈ insertPattern patterns pattern, samePattern other pattern = true := by
  rw [insertPattern]
  split
  · next hany => exact List.any_eq_true.mp hany
  · exact ⟨pattern, List.mem_append_right _ List.mem_cons_self, hself⟩

end Patterns

section Growth

variable (pool : Indexed α)

/-- A column that is put at the end leaves the columns before it. -/
theorem columns_isPrefix_store (column : Column α) :
    pool.columns <+: (pool.store column).1.columns := by
  rw [store]
  split
  · exact List.prefix_rfl
  · dsimp only
    repeat' split
    all_goals exact List.prefix_append _ _

/-- Columns only come to the end. -/
theorem columns_isPrefix_add (column : Column α) :
    pool.columns <+: (pool.add column).1.columns := by
  rw [add]
  split
  · exact pool.columns_isPrefix_store _
  · split
    · exact List.prefix_rfl
    · exact List.prefix_rfl
    · exact pool.columns_isPrefix_store _

/-- Columns only come to the end. -/
theorem columns_isPrefix_addAll (columns : List (Column α)) :
    pool.columns <+: (pool.addAll columns).columns := by
  induction columns generalizing pool with
  | nil => exact List.prefix_rfl
  | cons column rest ih => exact (pool.columns_isPrefix_add column).trans (ih _)

end Growth

/-- What the four parts of a pool keep: the columns have distinct identifiers below the next one, which
is not negative, the index has their places, and the counts and costs that occur are those of the
columns. -/
structure InStep (pool : Indexed Datum) : Prop where
  numbered : pool.toColumnPool.Numbered
  nonneg : ∀ next : Int, pool.nextId = .int next → 0 ≤ next
  index_eq : pool.index = (pool.columns.map (·.id)).zipIdx
  of_mem : ∀ pattern ∈ pool.patterns,
    ∃ column ∈ pool.columns, (column.counts, column.cost) = pattern
  exists_same : ∀ column ∈ pool.columns, column.HasValuedCost →
    ∃ pattern ∈ pool.patterns, samePattern pattern (column.counts, column.cost) = true

/-- A pool without columns is in step. -/
theorem inStep_empty : InStep {} where
  numbered := .empty
  nonneg next hnext := by
    obtain rfl : (0 : Int) = next := by simpa [Datum.int] using hnext
    exact Int.le_refl 0
  index_eq := rfl
  of_mem := by simp
  exists_same := by simp

namespace InStep

variable {pool : Indexed Datum} (h : pool.InStep)
include h

/-- The index has exactly the place of each identifier. -/
theorem find?_iff {id : Int} {place : Nat} : Table.find? (.int id) pool.index = some place ↔
    ∃ column, pool.columns[place]? = some column ∧ column.id = .int id := by
  rw [h.index_eq, Table.find?_zipIdx (fun known hknown => ?_) h.numbered.nodup_id, List.getElem?_map,
    Option.map_eq_some_iff]
  obtain ⟨column, hcolumn, rfl⟩ := List.mem_map.mp hknown
  exact h.numbered.same_int_iff hcolumn

/-- Nothing is found in the index under an identifier that no column has. -/
theorem find?_eq_none_iff {id : Int} : Table.find? (.int id) pool.index = none ↔
    ∀ column ∈ pool.columns, column.id ≠ .int id := by
  rw [Option.eq_none_iff_forall_ne_some]
  constructor
  · intro hnone column hcolumn hid
    obtain ⟨place, hplace⟩ := List.mem_iff_getElem?.mp hcolumn
    exact hnone place (h.find?_iff.mpr ⟨column, hplace, hid⟩)
  · intro hnone place hplace
    obtain ⟨column, hcolumn, hid⟩ := h.find?_iff.mp hplace
    exact hnone column (List.mem_of_getElem? hcolumn) hid

/-- An identifier finds in the index what is found along the columns. -/
theorem get_eq (id : Int) : pool.get (.int id) = .ok (pool.toColumnPool.find? (.int id)) := by
  have hget : Table.get pool.index (.int id) = .ok (Table.find? (.int id) pool.index) := rfl
  rcases hfind : Table.find? (.int id) pool.index with - | place
  · have hnone := h.numbered.find?_eq_none_iff.mpr (h.find?_eq_none_iff.mp hfind)
    simp only [get, hget, hfind, hnone, bind, Except.bind, pure, Except.pure]
  · obtain ⟨column, hplace, hid⟩ := h.find?_iff.mp hfind
    have hsome := h.numbered.find?_eq_some_iff.mpr ⟨List.mem_of_getElem? hplace, hid⟩
    have hentry : Position.entry pool.columns (place : Int) = .ok column := by
      simp [Position.entry, Position.toInt, entryAt, entryAt?, hplace, bind, Except.bind]
    simp only [get, hget, hfind, hentry, hsome, bind, Except.bind, pure, Except.pure]

/-- Where costs are numbers, the counts and costs that occur tell whether there is an equal column. -/
theorem contains_eq (hvalued : ∀ known ∈ pool.columns, known.HasValuedCost) {column : Column Datum}
    (hcost : column.HasValuedCost) :
    pool.contains column = .ok (pool.columns.any (·.equal column)) := by
  have hkey := hcost.requireKey
  obtain ⟨value, hvalue⟩ := hcost
  have hany : pool.patterns.any (samePattern · (column.counts, column.cost)) =
      pool.columns.any (·.equal column) := by
    rw [Bool.eq_iff_iff, List.any_eq_true, List.any_eq_true]
    constructor
    · rintro ⟨pattern, hpattern, hsame⟩
      obtain ⟨known, hknown, rfl⟩ := h.of_mem pattern hpattern
      obtain ⟨cost, hcost⟩ := hvalued known hknown
      refine ⟨known, hknown, ?_⟩
      rw [samePattern, Bool.and_eq_true] at hsame
      rw [Column.equal, Bool.and_eq_true]
      exact ⟨hsame.1, (Datum.eq_iff_value hcost hvalue).mpr
        ((Datum.same_iff_value hcost hvalue).mp hsame.2)⟩
    · rintro ⟨known, hknown, hequal⟩
      obtain ⟨pattern, hpattern, hsame⟩ := h.exists_same known hknown (hvalued known hknown)
      obtain ⟨other, hother, rfl⟩ := h.of_mem pattern hpattern
      obtain ⟨cost, hcost⟩ := hvalued known hknown
      obtain ⟨kept, hkept⟩ := hvalued other hother
      refine ⟨_, hpattern, ?_⟩
      -- costs of the same value are the same key whichever of them was kept
      rw [Column.equal, Bool.and_eq_true] at hequal
      rw [samePattern, Bool.and_eq_true] at hsame ⊢
      have hfirst := (Datum.same_iff_value hkept hcost).mp hsame.2
      have hsecond := (Datum.eq_iff_value hcost hvalue).mp hequal.2
      refine ⟨?_, (Datum.same_iff_value hkept hvalue).mpr (hfirst.trans hsecond)⟩
      rw [beq_iff_eq] at hsame hequal ⊢
      exact hsame.1.trans hequal.1
  simp only [contains, hkey, hany, bind, Except.bind, pure, Except.pure]

/-- A column with a free identifier is put at the end, and the four parts stay in step. -/
theorem exists_store {column : Column Datum} {id : Int} (hid : column.id = .int id)
    (hfree : ∀ known ∈ pool.columns, known.id ≠ .int id)
    (hkey : Quantity.requireKey column.cost = .ok ()) :
    ∃ after, pool.store column = (after, .ok column) ∧ after.InStep ∧
      pool.toColumnPool.append column = (after.toColumnPool, .ok column) ∧
      after.columns = pool.columns ++ [column] := by
  have hother : ∀ known ∈ pool.columns, known.id.same (.int id) = false := fun known hknown =>
    Bool.eq_false_iff.mpr fun hsame =>
      hfree known hknown ((h.numbered.same_int_iff hknown).mp hsame)
  obtain ⟨nextId, hnextId, happend, hnumbered⟩ :=
    h.numbered.append hid hother hkey
  have hplaces : Table.insert pool.index column.id pool.columns.length =
      .ok (((pool.columns ++ [column]).map (·.id)).zipIdx) := by
    have hnone := h.find?_eq_none_iff.mpr hfree
    rw [h.index_eq] at hnone
    have hset := Table.set_zipIdx hnone
    rw [List.length_map, ← hid] at hset
    rw [List.map_append, List.map_singleton, ← hset, h.index_eq, hid]
    rfl
  have hstore : pool.store column = (⟨⟨pool.columns ++ [column], nextId⟩,
      ((pool.columns ++ [column]).map (·.id)).zipIdx,
      insertPattern pool.patterns (column.counts, column.cost)⟩, .ok column) := by
    simp only [store, hnextId, hplaces, hkey]
  refine ⟨_, hstore, ⟨hnumbered, ?_, rfl, ?_, ?_⟩, happend, rfl⟩
  · -- the next identifier never becomes smaller
    intro next hnext
    obtain ⟨before, hbefore, -⟩ := h.numbered.exists_next
    have hnonneg := h.nonneg before hbefore
    rw [hid, hbefore, idAfter_int, Except.ok.injEq] at hnextId
    obtain rfl : max before (id + 1) = next := by simpa [Datum.int] using hnextId.trans hnext
    omega
  · intro pattern hpattern
    rcases mem_insertPattern hpattern with hpattern | rfl
    · obtain ⟨known, hknown, rfl⟩ := h.of_mem pattern hpattern
      exact ⟨known, List.mem_append_left _ hknown, rfl⟩
    · exact ⟨column, by simp, rfl⟩
  · intro known hknown hcost
    rcases List.mem_append.mp hknown with hknown | hknown
    · obtain ⟨pattern, hpattern, hsame⟩ := h.exists_same known hknown hcost
      exact ⟨pattern, subset_insertPattern _ _ hpattern, hsame⟩
    · obtain rfl := List.mem_singleton.mp hknown
      obtain ⟨value, hvalue⟩ := hcost
      refine exists_same_insertPattern _ ?_
      rw [samePattern, beq_self_eq_true, Bool.true_and]
      exact (Datum.same_iff_value hvalue hvalue).mpr rfl

/-- A column without an identifier, or with an integer, is refused if its identifier is in use, and then
nothing changes. Else it is put at the end under an identifier that is free, its own one or the next
one, and the four parts stay in step. The pool without its index does the same. -/
theorem add_cases {column : Column Datum} (hid : column.HasIntegerId)
    (hkey : Quantity.requireKey column.cost = .ok ()) :
    (∃ id : Int, column.id = .int id ∧ (∃ known ∈ pool.columns, known.id = .int id) ∧
      pool.add column = (pool, .error (.idTaken (.int id))) ∧
      pool.toColumnPool.add column = (pool.toColumnPool, .error (.idTaken (.int id)))) ∨
    ∃ after id, (column.id = .null ∧ pool.nextId = .int id ∨ column.id = .int id) ∧
      (∀ known ∈ pool.columns, known.id ≠ .int id) ∧
      pool.add column = (after, .ok { column with id := .int id }) ∧ after.InStep ∧
      pool.toColumnPool.add column = (after.toColumnPool, .ok { column with id := .int id }) ∧
      after.columns = pool.columns ++ [{ column with id := .int id }] := by
  rcases hid with hnull | ⟨id, hid⟩
  · obtain ⟨next, hnext, -⟩ := h.numbered.exists_next
    have hfree : ∀ known ∈ pool.columns, known.id ≠ .int next := fun known hknown heq => by
      have hother := h.numbered.nextId_free hnext known hknown
      rw [(h.numbered.same_int_iff hknown).mpr heq] at hother
      cases hother
    have hset : ({ column with id := .int next } : Column Datum).id = .int next := rfl
    obtain ⟨after, hstore, hstep, happend, hcolumns⟩ := h.exists_store hset hfree hkey
    refine Or.inr ⟨after, next, Or.inl ⟨hnull, hnext⟩, hfree, ?_, hstep, ?_, hcolumns⟩
    · simp only [add, hnull, hnext, hstore]
    · simp only [ColumnPool.add, hnull, hnext, happend]
  · have hsame : { column with id := .int id } = column := by rw [← hid]
    have hget : Table.get pool.index (.int id) = .ok (Table.find? (.int id) pool.index) := rfl
    rcases hfind : Table.find? (.int id) pool.index with - | place
    · have hfree := h.find?_eq_none_iff.mp hfind
      obtain ⟨after, hstore, hstep, happend, hcolumns⟩ := h.exists_store hid hfree hkey
      refine Or.inr ⟨after, id, Or.inr hid, hfree, ?_, hstep, ?_, hsame.symm ▸ hcolumns⟩
      · rw [hsame, ← hstore]
        simp only [add, hid, Datum.int] at hget hfind ⊢
        rw [hget, hfind]
      · rw [hsame, ← happend]
        refine add_of_free hid fun known hknown => Bool.eq_false_iff.mpr fun heq =>
          hfree known hknown ((h.numbered.same_int_iff hknown).mp heq)
    · obtain ⟨known, hplace, hknown⟩ := h.find?_iff.mp hfind
      have hmem := List.mem_of_getElem? hplace
      have hfound := h.numbered.find?_eq_some_iff.mpr ⟨hmem, hknown⟩
      refine Or.inl ⟨id, hid, ⟨known, hmem, hknown⟩, ?_, ?_⟩
      · simp only [add, hid, Datum.int] at hget hfind ⊢
        rw [hget, hfind]
      · have hmodel : pool.toColumnPool.get (.int id) = .ok (some known) := by
          rw [ColumnPool.get, hfound]
          rfl
        simp only [ColumnPool.add, hid, Datum.int] at hmodel ⊢
        rw [hmodel]

/-- Whatever columns are added, the four parts stay in step. -/
theorem addAll {columns : List (Column Datum)}
    (hcolumns : ∀ column ∈ columns,
      column.HasIntegerId ∧ Quantity.requireKey column.cost = .ok ()) :
    (pool.addAll columns).InStep ∧
      (pool.addAll columns).toColumnPool = pool.toColumnPool.addAll columns := by
  induction columns generalizing pool with
  | nil => exact ⟨h, rfl⟩
  | cons column rest ih =>
    obtain ⟨⟨hid, hkey⟩, hrest⟩ := List.forall_mem_cons.mp hcolumns
    have hfirst : (pool.add column).1.InStep ∧
        (pool.add column).1.toColumnPool = (pool.toColumnPool.add column).1 := by
      rcases h.add_cases hid hkey with ⟨id, -, -, hadd, hmodel⟩ | ⟨after, id, -, -, hadd, hstep,
        hmodel, -⟩
      · rw [hadd, hmodel]
        exact ⟨h, rfl⟩
      · rw [hadd, hmodel]
        exact ⟨hstep, rfl⟩
    have hall := ih hfirst.1 hrest
    rw [hfirst.2] at hall
    exact hall

end InStep

/-- What holds of a pool at every point: the identifiers are distinct integers below the next one, which
is not negative; an identifier finds the one column that has it, or nothing if there is none; and where
costs are numbers, the columns that are equal to one of the pool are known. The pool without its index
answers so as well. -/
structure Consistent (pool : Indexed Datum) : Prop where
  exists_ids : ∃ ids : List Int, pool.columns.map (·.id) = ids.map Datum.int ∧ ids.Nodup
  exists_next : ∃ next : Int, pool.nextId = .int next ∧ 0 ≤ next ∧
    ∀ column ∈ pool.columns, ∃ id : Int, column.id = .int id ∧ id < next
  get_eq_some : ∀ (id : Int) (column : Column Datum), pool.get (.int id) = .ok (some column) ↔
    column ∈ pool.columns ∧ column.id = .int id
  get_eq_none : ∀ id : Int, pool.get (.int id) = .ok none ↔
    ∀ column ∈ pool.columns, column.id ≠ .int id
  contains_eq : (∀ known ∈ pool.columns, known.HasValuedCost) → ∀ column : Column Datum,
    column.HasValuedCost → pool.contains column = .ok (pool.columns.any (·.equal column))
  get_agrees : ∀ id : Int, pool.get (.int id) = pool.toColumnPool.get (.int id)
  contains_agrees : (∀ known ∈ pool.columns, known.HasValuedCost) → ∀ column : Column Datum,
    column.HasValuedCost → pool.contains column = pool.toColumnPool.contains column

/-- What it means to add a column to a pool: without an identifier it gets the next one, which is free;
with a free identifier it is kept as it is; with one in use it is refused. It comes to the end of the
columns, or nothing changes. The pool without its index does the same. -/
structure Adds (pool : Indexed Datum) (column : Column Datum) : Prop where
  fresh : column.id = .null → (∀ known ∈ pool.columns, known.id ≠ pool.nextId) ∧
    (pool.add column).2 = .ok { column with id := pool.nextId }
  own : ∀ id : Int, column.id = .int id → (∀ known ∈ pool.columns, known.id ≠ .int id) →
    (pool.add column).2 = .ok column
  taken : ∀ id : Int, column.id = .int id → (∃ known ∈ pool.columns, known.id = .int id) →
    (pool.add column).2 = .error (.idTaken (.int id))
  stored : ∀ kept, (pool.add column).2 = .ok kept →
    (pool.add column).1.columns = pool.columns ++ [kept]
  refused : ∀ fault, (pool.add column).2 = .error fault → (pool.add column).1 = pool
  agrees : pool.toColumnPool.add column = ((pool.add column).1.toColumnPool, (pool.add column).2)

/-- A pool whose parts are in step is consistent. -/
theorem InStep.consistent {pool : Indexed Datum} (h : pool.InStep) : pool.Consistent where
  exists_ids := h.numbered.exists_ids
  exists_next := by
    obtain ⟨next, hnext, hbelow⟩ := h.numbered.exists_next
    exact ⟨next, hnext, h.nonneg next hnext, hbelow⟩
  get_eq_some id column := by
    rw [h.get_eq, Except.ok.injEq]
    exact h.numbered.find?_eq_some_iff
  get_eq_none id := by
    rw [h.get_eq, Except.ok.injEq]
    exact h.numbered.find?_eq_none_iff
  contains_eq hvalued _ hcost := h.contains_eq hvalued hcost
  get_agrees id := h.get_eq id
  contains_agrees hvalued column hcost := by
    have hany : pool.columns.any (·.same column) = pool.columns.any (·.equal column) := by
      rw [Bool.eq_iff_iff, List.any_eq_true, List.any_eq_true]
      refine exists_congr fun known => and_congr_right fun hknown => ?_
      rw [Column.same_eq_equal (hvalued known hknown) hcost]
    rw [h.contains_eq hvalued hcost, ColumnPool.contains, hcost.requireKey, hany]
    rfl

/-- A column is added to a pool whose parts are in step. -/
theorem InStep.adds {pool : Indexed Datum} (h : pool.InStep) {column : Column Datum}
    (hid : column.HasIntegerId) (hkey : Quantity.requireKey column.cost = .ok ()) :
    pool.Adds column := by
  rcases h.add_cases hid hkey with ⟨id, hown, ⟨known, hknown, htaken⟩, hadd, hmodel⟩ |
    ⟨after, id, hcases, hfree, hadd, -, hmodel, hcolumns⟩
  · rw [Datum.int] at hown
    exact {
      fresh := fun hnull => by simp [hown] at hnull
      own := fun other hother hfree => by
        obtain rfl : id = other := by simpa [Datum.int] using hown.symm.trans hother
        exact absurd htaken (hfree known hknown)
      taken := fun other hother _ => by
        obtain rfl : id = other := by simpa [Datum.int] using hown.symm.trans hother
        rw [hadd]
      stored := fun kept hkept => by simp [hadd] at hkept
      refused := fun _ _ => by rw [hadd]
      agrees := by rw [hmodel, hadd] }
  · refine ⟨fun hnull => ?_, fun other hother _ => ?_, fun other hother hused => ?_,
      fun kept hkept => ?_, fun fault hfault => ?_, by rw [hmodel, hadd]⟩
    · rcases hcases with ⟨-, hnext⟩ | hown
      · rw [hnext, hadd]
        exact ⟨hfree, rfl⟩
      · simp [hnull, Datum.int] at hown
    · rcases hcases with ⟨hnull, -⟩ | hown
      · simp [hnull, Datum.int] at hother
      · rw [hadd, ← hown]
    · rcases hcases with ⟨hnull, -⟩ | hown
      · simp [hnull, Datum.int] at hother
      · obtain ⟨known, hknown, htaken⟩ := hused
        exact absurd (htaken.trans (hother.symm.trans hown)) (hfree known hknown)
    · rw [hadd, Except.ok.injEq] at hkept
      rw [hadd, hcolumns, hkept]
    · simp [hadd] at hfault

/-- Whatever columns are added to a pool one after the other, without identifiers or with integers of
any size and order, refused ones among them: the pool is consistent and that of the operations, a
further column is added as it should be, and further columns only come to the end. -/
theorem consistent_addAll {columns : List (Column Datum)}
    (hcolumns : ∀ column ∈ columns,
      column.HasIntegerId ∧ Quantity.requireKey column.cost = .ok ()) :
    (addAll {} columns).Consistent ∧
      (addAll {} columns).toColumnPool = ColumnPool.addAll {} columns ∧
      (∀ column : Column Datum, column.HasIntegerId → Quantity.requireKey column.cost = .ok () →
        (addAll {} columns).Adds column) ∧
      ∀ more, (addAll {} columns).columns <+: (addAll {} (columns ++ more)).columns := by
  obtain ⟨hstep, hsame⟩ := inStep_empty.addAll hcolumns
  refine ⟨hstep.consistent, hsame, fun _ hid hkey => hstep.adds hid hkey, fun more => ?_⟩
  have hlater : addAll {} (columns ++ more) = (addAll {} columns).addAll more := List.foldl_append
  rw [hlater]
  exact columns_isPrefix_addAll _ more

/-- Columns with a negative identifier, with one far ahead, twice with that one, and without any. -/
def mixedColumns : List (Column Datum) :=
  [{ counts := [1, 0], cost := .float 1.0, id := .int (-3) },
    { counts := [0, 1], cost := .float 1.0 },
    { counts := [1, 1], cost := .float 1.5, id := .int 70 },
    { counts := [2, 0], cost := .float 1.0, id := .int 70 },
    { counts := [0, 2], cost := .int 1 }]

/-- Four of these columns are kept, two of them under identifiers that the pool has chosen, and one is
refused. A column that is equal to a kept one is known, and one that is equal to the refused one is
not. -/
theorem consistent_addAll_mixedColumns :
    (addAll {} mixedColumns).columns.map (·.id.plain) = ["-3", "0", "70", "71"] ∧
      (addAll {} mixedColumns).Consistent ∧
      (∀ column : Column Datum, column.HasIntegerId → Quantity.requireKey column.cost = .ok () →
        (addAll {} mixedColumns).Adds column) ∧
      (addAll {} mixedColumns).contains { counts := [0, 2], cost := .float 1.0 } = .ok true ∧
      (addAll {} mixedColumns).contains { counts := [2, 0], cost := .float 1.0 } = .ok false := by
  have hcolumns : ∀ column ∈ mixedColumns,
      column.HasIntegerId ∧ Quantity.requireKey column.cost = .ok () := by
    simp [mixedColumns, Column.HasIntegerId, Quantity.requireKey, Datum.requireKey, Datum.isKey,
      Datum.float, Datum.int]
  have hvalued : ∀ column ∈ (addAll {} mixedColumns).columns, column.HasValuedCost := by
    have hsome : ∀ column ∈ (addAll {} mixedColumns).columns,
        column.cost.value?.isSome = true := by decide +kernel
    exact fun column hcolumn => Option.isSome_iff_exists.mp (hsome column hcolumn)
  have hone : ∀ counts : List Nat,
      ({ counts, cost := .float 1.0 } : Column Datum).HasValuedCost := fun counts =>
    Option.isSome_iff_exists.mp (by decide +kernel : (Datum.float 1.0).value?.isSome = true)
  obtain ⟨hconsistent, -, hadds, -⟩ := consistent_addAll hcolumns
  refine ⟨by decide +kernel, hconsistent, hadds, ?_, ?_⟩
  · rw [hconsistent.contains_eq hvalued _ (hone _)]
    exact congrArg Except.ok (by decide +kernel)
  · rw [hconsistent.contains_eq hvalued _ (hone _)]
    exact congrArg Except.ok (by decide +kernel)

end Indexed

end ColumnPool

end PatternCovering
