import PatternCovering.Proofs.Cover.Books
import PatternCovering.Proofs.Problem.Calls

/-!
# The covers that can be reached

A cover acts on its problem only by the calls of a problem and by entries in the journal, so that what
every call keeps is kept by every operation of the cover. A cover is reached from one that was built by
its own operations, by calls that a caller makes on the problem directly, and by what happens to the
engine from outside. Wherever an engine fails on the way, a reached cover has as many handles as
columns, its handles are those of variables of the problem, and its columns are numbered.
-/

namespace PatternCovering

variable {ε α : Type} [Quantity α]

/-- Whether every call on a problem and every entry in its journal keep a property. -/
structure Problem.Kept (engine : Engine ε α) (P : Problem ε → Prop) : Prop where
  call : ∀ (problem : Problem ε) (call : Problem.Call α), P problem →
    P (call.perform engine problem).1
  journal : ∀ (problem : Problem ε) (journal : Journal), P problem → P { problem with journal }

namespace Problem.Kept

variable {engine : Engine ε α} {P : Problem ε → Prop} {problem : Problem ε}

/-- A problem that is created keeps what calls keep. -/
theorem create (hP : Kept engine P) (h : P problem) {created : Problem ε} {name : Datum}
    {sense : Sense} {outcome : Except Fault Unit}
    (hcreated : problem.create engine name sense = (created, outcome)) : P created := by
  have hnext := hP.call problem (.create name sense) h
  rw [Call.perform, hcreated] at hnext
  exact hnext

/-- Adding a variable keeps what calls keep. -/
theorem addVariable (hP : Kept engine P) (h : P problem) {added : Variable α}
    {extended : Problem ε} {handle : Handle}
    (hadded : problem.addVariable engine added = .ok (extended, handle)) : P extended := by
  have hnext := hP.call problem (.addVariable added) h
  rw [Call.perform, hadded] at hnext
  exact hnext

/-- Adding a constraint keeps what calls keep. -/
theorem addConstraint (hP : Kept engine P) (h : P problem) {row : Row α}
    {terms : List (Reference × α)} {modifiable : Datum} {extended : Problem ε}
    {outcome : Except Fault Handle}
    (hadded : problem.addConstraint engine row terms modifiable = (extended, outcome)) :
    P extended := by
  have hnext := hP.call problem (.addConstraint row terms modifiable) h
  rw [Call.perform, hadded] at hnext
  exact hnext

/-- Adding a coefficient keeps what calls keep. -/
theorem addCoefficient (hP : Kept engine P) (h : P problem) {row column : Reference} {amount : α}
    {changed : Problem ε} {outcome : Except Fault Unit}
    (hadded : problem.addCoefficient engine row column amount = (changed, outcome)) : P changed := by
  have hnext := hP.call problem (.addCoefficient row column amount) h
  rw [Call.perform, hadded] at hnext
  exact hnext

/-- Making a variable integer or continuous keeps what calls keep. -/
theorem setInteger (hP : Kept engine P) (h : P problem) {given : Reference} {isInteger : Datum}
    {changed : Problem ε} (hset : problem.setInteger engine given isInteger = .ok changed) :
    P changed := by
  have hnext := hP.call problem (.setInteger given isInteger) h
  rw [Call.perform, hset] at hnext
  exact hnext

/-- Solving keeps what calls keep. -/
theorem solve (hP : Kept engine P) (h : P problem) : P (problem.solve engine).1 :=
  hP.call problem .solve h

/-- Telling of an event keeps what entries in the journal keep. -/
theorem tell (hP : Kept engine P) (h : P problem) (event : Event) : P (problem.tell event).1 := by
  obtain ⟨journal, hjournal⟩ := problem.exists_tell event
  rw [hjournal]
  exact hP.journal problem journal h

/-- Making variables integer or continuous keeps what calls keep. -/
theorem setIntegers (hP : Kept engine P) (h : P problem) (isInteger : Bool) (handles : List Handle) :
    P (Cover.setIntegers engine isInteger handles problem).1 := by
  induction handles generalizing problem with
  | nil => exact h
  | cons handle rest ih =>
    rw [Cover.setIntegers]
    split
    · exact h
    · next changed hchanged => exact ih (hP.setInteger h hchanged)

/-- Writing coefficients keeps what calls keep. -/
theorem writeCounts (hP : Kept engine P) (h : P problem) (handle : Handle)
    (pairs : List (Nat × Handle)) : P (Cover.writeCounts engine handle pairs problem).1 := by
  induction pairs generalizing problem with
  | nil => exact h
  | cons pair rest ih =>
    obtain ⟨count, row⟩ := pair
    rw [Cover.writeCounts]
    split
    · exact ih h
    · split
      · next written hadded => exact ih (hP.addCoefficient h hadded)
      · next written fault hadded => exact hP.addCoefficient h hadded

/-- Adding rows keeps what calls keep. -/
theorem addRows (hP : Kept engine P) (h : P problem) {first : Nat} {items : List Item}
    {rows all : List Handle} {ruled : Problem ε} {outcome : Except Fault Unit}
    (hrows : Cover.addRows engine first items problem rows = ((ruled, all), outcome)) : P ruled := by
  induction items generalizing first rows problem with
  | nil =>
    cases hrows
    exact h
  | cons item rest ih =>
    simp only [Cover.addRows] at hrows
    split at hrows
    · cases hrows
      exact h
    · split at hrows
      · next extended fault hadded =>
        cases hrows
        exact hP.addConstraint h hadded
      · next extended handle hadded => exact ih (hP.addConstraint h hadded) hrows

/-- Adding a column keeps what calls keep. -/
theorem addColumn (hP : Kept engine P) {cover : Cover ε α} (h : P cover.problem)
    (column : Column α) (name : Datum) : P (cover.addColumn engine column name).1.problem := by
  rcases cover.addColumn_cases engine column name with
    ⟨fault, hrefused⟩ | ⟨title, extended, handle, written, -, hadded, hcases⟩
  · rw [hrefused]
    exact h
  · have hwritten := hP.writeCounts (hP.addVariable h hadded) handle (column.counts.zip cover.rows)
    rcases hcases with ⟨fault, hwrites, hfailed⟩ | ⟨hwrites, hstored⟩
    · rw [hwrites] at hwritten
      rw [hfailed]
      exact hwritten
    · rw [hwrites] at hwritten
      rw [hstored, Cover.store]
      split
      · exact hwritten
      · exact hP.tell hwritten _

/-- Solving the relaxation keeps what calls keep. -/
theorem solveRelaxation (hP : Kept engine P) {cover : Cover ε α} (h : P cover.problem)
    (tolerance : α) : P (cover.solveRelaxation engine tolerance).1.problem := by
  obtain ⟨last, hsame⟩ := cover.exists_solveRelaxation engine tolerance
  rw [hsame]
  exact hP.solve h

/-- Solving the integer restriction keeps what calls keep. -/
theorem solveRestriction (hP : Kept engine P) {cover : Cover ε α} (h : P cover.problem)
    (tolerance : α) : P (cover.solveRestriction engine tolerance).1.problem := by
  rcases cover.solveRestriction_cases engine tolerance with hsame | hsame
  · rw [hsame]
    exact hP.setIntegers h true cover.handles
  · rw [hsame]
    exact hP.setIntegers (hP.solve (hP.setIntegers h true cover.handles)) false cover.handles

end Problem.Kept

namespace Problem

/-- Whether a problem was created and has at least some number of variables. -/
def IsBeyond (count : Nat) (problem : Problem ε) : Prop :=
  problem.isCreated = true ∧ count ≤ problem.vars.length

/-- A problem stays created, and its variables stay. -/
theorem kept_isBeyond (engine : Engine ε α) (count : Nat) : Kept engine (IsBeyond count) where
  call problem call h := by
    have hcomes := comes_perform engine problem call
    generalize call.perform engine problem = result at hcomes
    cases hcomes with
    | refused hrefused =>
      cases hrefused with
      | create hnew hengine => exact absurd (hnew.symm.trans h.1) Bool.false_ne_true
      | unchanged | addConstraint | addCoefficient | solve => exact h
    | accepted haccepted =>
      cases haccepted with
      | create hnew hengine => exact absurd (hnew.symm.trans h.1) Bool.false_ne_true
      | addVariable hcreated hengine hhandle =>
        refine ⟨h.1, h.2.trans ?_⟩
        rw [List.length_append]
        exact Nat.le_add_right _ _
      | addConstraint | setModifiable | isModifiable | addCoefficient | setInteger | solve | status
        | ask => exact h
  journal _ _ h := h

/-- A problem keeps its listener. -/
theorem kept_listener (engine : Engine ε α) (listener : Listener) :
    Kept engine (fun problem => problem.listener = listener) where
  call problem call h := by
    have hcomes := comes_perform engine problem call
    generalize call.perform engine problem = result at hcomes
    cases hcomes with
    | refused hrefused => cases hrefused <;> exact h
    | accepted haccepted => cases haccepted <;> exact h
  journal _ _ h := h

end Problem

namespace Cover

/-- The covers that can be reached over an engine: from one that was built in a new problem, by the
operations of a cover, by calls on its problem and by entries in the journal. The last case is what may
happen to the engine from outside. -/
inductive Reached (engine : Engine ε α) (outside : ε → ε → Prop) : Cover ε α → Prop
  | build {state : ε} {listener : Listener} {items : List Item} {name : Datum} {seeded : Bool}
    {cover : Cover ε α}
    (hbuild : Cover.build engine { engine := state, listener } items name seeded = (cover, .ok ())) :
    Reached engine outside cover
  | addColumn {cover : Cover ε α} (h : Reached engine outside cover) {column : Column α}
    (hid : column.HasIntegerId) (name : Datum) :
    Reached engine outside (cover.addColumn engine column name).1
  | solveRelaxation {cover : Cover ε α} (h : Reached engine outside cover) (tolerance : α) :
    Reached engine outside (cover.solveRelaxation engine tolerance).1
  | solveRestriction {cover : Cover ε α} (h : Reached engine outside cover) (tolerance : α) :
    Reached engine outside (cover.solveRestriction engine tolerance).1
  | tell {cover : Cover ε α} (h : Reached engine outside cover) (event : Event) :
    Reached engine outside (cover.tell event).1
  | call {cover : Cover ε α} (h : Reached engine outside cover) (call : Problem.Call α) :
    Reached engine outside { cover with problem := (call.perform engine cover.problem).1 }
  | outside {cover : Cover ε α} (h : Reached engine outside cover) {state : ε}
    (hstate : outside cover.problem.engine state) :
    Reached engine outside { cover with problem := { cover.problem with engine := state } }

variable {engine : Engine ε α} {outside : ε → ε → Prop} {cover : Cover ε α} {column : Column α}

/-- Rows are only added to a problem that was created. -/
theorem isCreated_of_addRows {first : Nat} {items : List Item} {rows all : List Handle}
    {problem ruled : Problem ε} (hitems : items ≠ [])
    (h : addRows engine first items problem rows = ((ruled, all), .ok ())) :
    problem.isCreated = true := by
  cases items with
  | nil => exact absurd rfl hitems
  | cons item rest =>
    simp only [addRows] at h
    split at h
    · cases h
    · split at h
      · cases h
      · next hadded => exact (Problem.of_addConstraint hadded).1

/-- A cover that is built has a problem that was created and went through calls from then on. -/
theorem keeps_build {P : Problem ε → Prop} (hP : Problem.Kept engine P) {problem : Problem ε}
    {items : List Item} {name : Datum} {seeded : Bool}
    (hcreated : ∀ created, problem.create engine name .minimize = (created, .ok ()) →
      created.isCreated = true → P created)
    (hbuild : Cover.build engine problem items name seeded = (cover, .ok ())) : P cover.problem := by
  refine build_keeps (P := fun cover => P cover.problem)
    (fun cover item name hcover => hP.addColumn hcover _ name) hbuild ?_
  intro created ruled rows hitems hcreate hrows
  exact hP.addRows (hcreated created hcreate (isCreated_of_addRows hitems hrows)) hrows

/-- What a new problem has, and calls, entries in the journal and changes of the engine keep, holds of
the problem of every cover that can be reached. -/
theorem Reached.keeps {P : Problem ε → Prop} (hP : Problem.Kept engine P)
    (hcreated : ∀ state listener name created,
      Problem.create engine { engine := state, listener } name .minimize = (created, .ok ()) →
        created.isCreated = true → P created)
    (houtside : ∀ problem state, outside problem.engine state → P problem →
      P { problem with engine := state })
    (h : Reached engine outside cover) : P cover.problem := by
  induction h with
  | build hbuild => exact keeps_build hP (hcreated _ _ _) hbuild
  | addColumn _ _ name ih => exact hP.addColumn ih _ name
  | solveRelaxation _ tolerance ih => exact hP.solveRelaxation ih tolerance
  | solveRestriction _ tolerance ih => exact hP.solveRestriction ih tolerance
  | tell _ event ih => exact hP.tell ih event
  | call _ call ih => exact hP.call _ call ih
  | outside _ hstate ih => exact houtside _ _ hstate ih

/-- What holds of a cover wherever its engine and its listener fail. -/
structure Sound (cover : Cover ε α) : Prop where
  created : cover.problem.isCreated = true
  numbered : cover.pool.Numbered
  length_handles : cover.handles.length = cover.pool.columns.length
  handle_lt : ∀ handle ∈ cover.handles, handle.index < cover.problem.vars.length

namespace Sound

omit [Quantity α] in
/-- A sound cover is sound over a problem that was created and has all of its variables. -/
theorem of_isBeyond (h : cover.Sound) {problem : Problem ε}
    (hbeyond : problem.IsBeyond cover.problem.vars.length) : Sound { cover with problem } :=
  { h with
    created := hbeyond.1
    handle_lt := fun handle hhandle => (h.handle_lt handle hhandle).trans_le hbeyond.2 }

omit [Quantity α] in
/-- A sound cover is beyond its own variables. -/
theorem isBeyond (h : cover.Sound) : cover.problem.IsBeyond cover.problem.vars.length :=
  ⟨h.created, le_rfl⟩

/-- An accepted column is taken by the pool together with its handle. -/
theorem exists_store (h : cover.Sound) (hid : column.HasIntegerId)
    (hcheck : cover.checkColumn column = .ok ()) (problem : Problem ε) (handle : Handle) :
    ∃ pool journal outcome,
      { cover with problem }.store { column with id := cover.idFor column } handle =
        ({ cover with
           problem := { problem with journal }, pool, handles := cover.handles ++ [handle] },
          outcome) ∧
      pool.columns = cover.pool.columns ++ [{ column with id := cover.idFor column }] ∧
      pool.Numbered := by
  obtain ⟨-, hnew, hfree, -⟩ := of_checkColumn hcheck
  obtain ⟨hkey, -⟩ := of_hasColumn hnew
  obtain ⟨id, hidFor, hfree⟩ := exists_idFor h.numbered hid hfree
  rw [hidFor]
  have hnext : ({ column with id := .int id } : Column α).id = .int id := rfl
  obtain ⟨nextId, -, hadd, hnumbered⟩ := h.numbered.add hnext hfree hkey
  generalize ({ column with id := .int id } : Column α) = stored at hadd hnumbered
  obtain ⟨journal, hjournal⟩ := problem.exists_tell (.columnAdded stored.id stored.pattern)
  refine ⟨_, journal, (problem.tell (.columnAdded stored.id stored.pattern)).2.map fun _ => stored,
    ?_, rfl, hnumbered⟩
  rw [store, hadd, ← hjournal]
  rfl

/-- Adding a column keeps a cover sound. -/
theorem addColumn (h : cover.Sound) (hid : column.HasIntegerId) (engine : Engine ε α)
    (name : Datum) : (cover.addColumn engine column name).1.Sound := by
  rcases cover.addColumn_cases engine column name with
    ⟨fault, hrefused⟩ | ⟨title, extended, handle, written, hcheck, hadded, hcases⟩
  · rw [hrefused]
    exact h
  · obtain ⟨hhandle, state, -, hextended⟩ := Problem.of_addVariable hadded
    have hmore : extended.IsBeyond (cover.problem.vars.length + 1) := by
      rw [hextended]
      refine ⟨h.created, ?_⟩
      rw [List.length_append]
      rfl
    have hwritten := (Problem.kept_isBeyond engine _).writeCounts hmore handle
      (column.counts.zip cover.rows)
    rcases hcases with ⟨fault, hwrites, hfailed⟩ | ⟨hwrites, hstored⟩
    · rw [hwrites] at hwritten
      rw [hfailed]
      exact h.of_isBeyond ⟨hwritten.1, (Nat.le_succ _).trans hwritten.2⟩
    · rw [hwrites] at hwritten
      obtain ⟨pool, journal, outcome, hstore, hcolumns, hnumbered⟩ :=
        h.exists_store hid hcheck written handle
      rw [hstored, hstore]
      exact {
        created := hwritten.1
        numbered := hnumbered
        length_handles := by
          rw [hcolumns, List.length_append, List.length_append, h.length_handles]
          rfl
        handle_lt := fun known hknown => by
          refine Nat.lt_of_lt_of_le ?_ hwritten.2
          rcases List.mem_append.mp hknown with hold | hlast
          · exact (h.handle_lt known hold).trans (Nat.lt_succ_self _)
          · rw [List.mem_singleton.mp hlast, hhandle]
            exact Nat.lt_succ_self _ }

/-- A cover that is built is sound. -/
theorem build {problem : Problem ε} {items : List Item} {name : Datum} {seeded : Bool}
    (h : Cover.build engine problem items name seeded = (cover, .ok ())) : cover.Sound := by
  refine build_keeps (fun cover item name hsound => hsound.addColumn (Or.inl rfl) engine name) h ?_
  intro created ruled rows hitems hcreated hrows
  have hruled := (Problem.kept_isBeyond engine 0).addRows
    ⟨isCreated_of_addRows hitems hrows, Nat.zero_le _⟩ hrows
  exact ⟨hruled.1, .empty, rfl, fun handle hhandle => absurd hhandle List.not_mem_nil⟩

end Sound

/-- A cover that can be reached is sound. -/
theorem Reached.sound (h : Reached engine outside cover) : cover.Sound := by
  induction h with
  | build hbuild => exact .build hbuild
  | addColumn _ hid name ih => exact ih.addColumn hid engine name
  | @solveRelaxation cover _ tolerance ih =>
    obtain ⟨last, hsame⟩ := cover.exists_solveRelaxation engine tolerance
    rw [hsame]
    exact { ih.of_isBeyond ((Problem.kept_isBeyond engine _).solve ih.isBeyond) with }
  | @solveRestriction cover _ tolerance ih =>
    have hkept := Problem.kept_isBeyond engine cover.problem.vars.length
    have hset := hkept.setIntegers ih.isBeyond true cover.handles
    rcases cover.solveRestriction_cases engine tolerance with hsame | hsame
    · rw [hsame]
      exact ih.of_isBeyond hset
    · rw [hsame]
      exact ih.of_isBeyond (hkept.setIntegers (hkept.solve hset) false cover.handles)
  | tell _ event ih => exact ih.of_isBeyond ((Problem.kept_isBeyond engine _).tell ih.isBeyond event)
  | call _ call ih => exact ih.of_isBeyond ((Problem.kept_isBeyond engine _).call _ call ih.isBeyond)
  | outside _ hstate ih => exact ih.of_isBeyond ih.isBeyond

end Cover

end PatternCovering
