import PatternCovering.Proofs.Cover.Alignment
import PatternCovering.Proofs.Problem.History
import Mathlib.Data.List.Basic

/-!
# The books of a problem and the model of its engine

A problem counts its variables and constraints, and its engine counts columns and rows on its own. The
two agree over every engine that takes what it is told or else refuses it and stays as it was, because
a problem checks everything before it asks the engine. What the books and the model come to can then be
read off what was accepted: the handles in the order of the calls, the flags that were last given, and
the entries as sums of the coefficients that were given for them. Each call keeps this.
-/

namespace PatternCovering

/-- Whether what can be read off the states of an engine is the model that it was told: a variable, a
row and a coefficient are taken as such, or refused without a change. An engine that never fails is a
case of this. -/
structure Engine.Appends {ε α : Type} [Quantity α] (engine : Engine ε α) (model : ε → Model α) :
    Prop where
  create : ∀ state sense, ∃ after, engine.create state sense = (after, .ok ()) ∧
    model after = { sense }
  addVariable : ∀ state added after, engine.addVariable state added = .ok after →
    model after = (model state).addVariable added
  addRow : ∀ state row terms after, engine.addRow state row terms = (after, .ok ()) →
    model after = (model state).addRow row terms
  addCoefficient : ∀ state row column amount after,
    engine.addCoefficient state row column amount = (after, .ok ()) →
      model after = (model state).addCoefficient row column amount
  setInteger : ∀ state column isInteger after, engine.setInteger state column isInteger = .ok after →
    ∃ place, model after = (model state).setInteger place isInteger
  solve : ∀ state after status, engine.solve state = (after, .ok status) → model after = model state
  refused_addRow : ∀ state row terms after fault,
    engine.addRow state row terms = (after, .error fault) → after = state
  refused_addCoefficient : ∀ state row column amount after fault,
    engine.addCoefficient state row column amount = (after, .error fault) → after = state
  refused_solve : ∀ state after fault, engine.solve state = (after, .error fault) → after = state

/-- A recorder takes what it is told, or refuses it without a change. -/
theorem Recorder.appends {α : Type} [Quantity α] :
    (Recorder.engine (α := α)).Appends (·.model) where
  create _ _ := ⟨_, rfl, rfl⟩
  addVariable _ _ _ hadded := by rw [← Except.ok.inj hadded]
  addRow _ _ _ _ hadded := by rw [← (Prod.mk.inj hadded).1]
  addCoefficient recorder row column amount after hadded := by
    rcases recorder.addCoefficient_cases row column amount with ⟨fault, hrefused⟩ | htaken
    · cases hrefused.symm.trans hadded
    · rw [← (Prod.mk.inj (htaken.symm.trans hadded)).1]
  setInteger _ _ _ _ hset := by
    obtain ⟨place, -, hset⟩ := bind_eq_ok.mp hset
    exact ⟨place, by rw [← Except.ok.inj hset]⟩
  solve recorder after status hsolved := by
    change recorder.advance = _ at hsolved
    rw [advance] at hsolved
    split at hsolved
    · cases hsolved
    · rw [← (Prod.mk.inj hsolved).1]
  refused_addRow _ _ _ _ _ hrefused := by cases hrefused
  refused_addCoefficient recorder row column amount after fault hfault := by
    rcases recorder.addCoefficient_cases row column amount with ⟨known, hrefused⟩ | htaken
    · exact (Prod.mk.inj (hfault.symm.trans hrefused)).1
    · cases htaken.symm.trans hfault
  refused_solve recorder after fault hfault := by
    change recorder.advance = _ at hfault
    rw [advance] at hfault
    split at hfault
    · exact (Prod.mk.inj hfault).1.symm
    · cases hfault

namespace Problem

variable {ε α : Type} [Quantity α]

/-- Whether the books of a problem and a model are what was accepted. -/
structure Ledger (model : Model α) (problem : Problem ε) (history : History α) : Prop where
  /-- The handles of the variables are those that were given, in this order. -/
  vars_eq : problem.vars = history.columns.map (·.2)
  /-- The handle of each variable is that of its column. -/
  column_eq : ∀ (k : Nat) (added : Variable α) (handle : Handle),
    history.columns[k]? = some (added, handle) →
      handle = ⟨k, added.name⟩ ∧ ∃ isInteger, model.vars[k]? = some { added with isInteger }
  length_vars : model.vars.length = problem.vars.length
  /-- The handles of the constraints are those that were given, in this order. -/
  constraints_eq : problem.constraints = history.rows.map (·.2)
  /-- The handle of each constraint is that of its row. -/
  row_eq : ∀ (k : Nat) (row : Row α) (handle : Handle),
    history.rows[k]? = some (row, handle) →
      handle = ⟨k, row.name⟩ ∧ model.rows[k]? = some row
  length_rows : model.rows.length = problem.constraints.length
  length_modifiable : problem.modifiable.length = problem.constraints.length
  /-- Each row has the flag that was last given for it. -/
  flag_eq : ∀ place : Nat, problem.modifiable[place]? = (history.flags place).getLast?
  /-- Each entry is the sum of the coefficients that were given for it. -/
  entry_eq : ∀ place other : Nat,
    model.entry? (.int place) (.int other) = Quantity.total? (history.amounts place other)
  of_not_created : problem.isCreated = false →
    problem.vars = [] ∧ problem.constraints = [] ∧ model.entries = []

/-- An index that stands for an integer is one of the handles exactly if the integer is in range. -/
theorem isIndex_iff {count : Nat} {index : Datum} {i : Int} (h : index.toInt = .ok i) :
    IsIndex count index ↔ 0 ≤ i ∧ i < count := by
  have hbounds : IsIndex count index ↔
      Except.ok (decide (i < 0)) = (Except.ok false : Except Fault Bool) ∧
        Except.ok (decide ((count : Int) ≤ i)) = (Except.ok false : Except Fault Bool) := by
    rw [← Datum.lt_int_of_toInt h, ← Datum.int_le_of_toInt h]
    exact ⟨fun h => ⟨h.nonneg, h.lt⟩, fun h => ⟨h.1, h.2⟩⟩
  simp [hbounds]

/-- The place of an index of a handle is the integer that it stands for. -/
theorem of_place {count size : Nat} {index : Datum} {row : Nat} (h : IsIndex count index)
    (hplace : Position.place size index = .ok row) : row < size ∧ index.toInt = .ok (row : Int) := by
  obtain ⟨i, hi, hplace⟩ := bind_eq_ok.mp hplace
  change index.toInt = .ok i at hi
  have hnonneg := ((isIndex_iff hi).mp h).1
  rw [placeAt?, if_pos hnonneg] at hplace
  split at hplace
  · next place hsome =>
    obtain rfl := Except.ok.inj hplace
    split at hsome
    · next hlt =>
      obtain rfl := Option.some.inj hsome
      exact ⟨hlt, by rw [hi, Int.toNat_of_nonneg hnonneg]⟩
    · cases hsome
  · cases hplace

/-- What is found under an index of a handle stands at the integer that it stands for. -/
theorem of_entry {β : Type} {count : Nat} {entries : List β} {index : Datum} {known : β}
    (h : IsIndex count index) (hentry : Position.entry entries index = .ok known) :
    ∃ place : Nat, index.toInt = .ok (place : Int) ∧ entries[place]? = some known := by
  obtain ⟨i, hi, hentry⟩ := bind_eq_ok.mp hentry
  change index.toInt = .ok i at hi
  have hnonneg := ((isIndex_iff hi).mp h).1
  rw [PatternCovering.entryAt, entryAt?, if_pos hnonneg] at hentry
  split at hentry
  · next hsome =>
    obtain rfl := Except.ok.inj hentry
    exact ⟨i.toNat, by rw [hi, Int.toNat_of_nonneg hnonneg], hsome⟩
  · cases hentry

/-- A refused call leaves everything as it was if the engine does so where it refuses. -/
theorem Refuses.eq_self {engine : Engine ε α} {model : ε → Model α} (h : engine.Appends model)
    {problem after : Problem ε} {call : Call α} {fault : Fault}
    (hrefused : Refuses engine problem call fault after) : after = problem := by
  cases hrefused with
  | unchanged => rfl
  | create hnew hengine =>
    obtain ⟨created, hcreated, -⟩ := h.create _ _
    cases hengine.symm.trans hcreated
  | addConstraint hengine => rw [h.refused_addRow _ _ _ _ _ hengine]
  | addCoefficient hengine => rw [h.refused_addCoefficient _ _ _ _ _ _ hengine]
  | solve hengine => rw [h.refused_solve _ _ _ hengine]

namespace Ledger

variable {model : Model α} {problem : Problem ε} {history : History α}

/-- The books of a new problem over an empty model. -/
theorem empty (state : ε) (listener : Listener) :
    Ledger ({} : Model α) { engine := state, listener } (History.ofLog []) where
  vars_eq := rfl
  column_eq := by simp [History.ofLog]
  length_vars := rfl
  constraints_eq := rfl
  row_eq := by simp [History.ofLog]
  length_rows := rfl
  length_modifiable := rfl
  flag_eq _ := rfl
  entry_eq _ _ := rfl
  of_not_created _ := ⟨rfl, rfl, rfl⟩

/-- A problem that is created has books without entries. -/
theorem create (h : Ledger model problem history) (hnew : problem.isCreated = false) (state : ε)
    (name : Datum) (sense : Sense) :
    Ledger ({ sense } : Model α) { problem with engine := state, name, sense } history := by
  obtain ⟨hvars, hconstraints, hentries⟩ := h.of_not_created hnew
  have hnovars : history.columns = [] := List.map_eq_nil_iff.mp (h.vars_eq.symm.trans hvars)
  have hnorows : history.rows = [] :=
    List.map_eq_nil_iff.mp (h.constraints_eq.symm.trans hconstraints)
  exact { h with
    column_eq := by simp [hnovars]
    length_vars := (congrArg List.length hvars).symm
    row_eq := by simp [hnorows]
    length_rows := (congrArg List.length hconstraints).symm
    entry_eq := fun place other => by
      rw [← h.entry_eq place other, Model.entry?, Model.entry?, hentries]
    of_not_created := fun _ => ⟨hvars, hconstraints, rfl⟩ }

/-- Making a variable integer or continuous leaves the books. -/
theorem setInteger (h : Ledger model problem history) (place : Nat) (isInteger : Datum) :
    Ledger (model.setInteger place isInteger) problem history :=
  { h with
    column_eq := fun k added handle hadded => by
      obtain ⟨hhandle, flag, hknown⟩ := h.column_eq k added handle hadded
      refine ⟨hhandle, ?_⟩
      rw [Model.setInteger, List.getElem?_modify, hknown]
      by_cases hsame : place = k
      · exact ⟨isInteger, by simp [hsame]⟩
      · exact ⟨flag, by simp [hsame]⟩
    length_vars := (List.length_modify ..).trans h.length_vars }

/-- What stands at a place of a list with one more entry stood there before, or is the new entry. -/
theorem of_getElem?_concat {β : Type} {entries : List β} {last known : β} {k : Nat}
    (h : (entries ++ [last])[k]? = some known) :
    entries[k]? = some known ∨ k = entries.length ∧ known = last := by
  rcases Nat.lt_trichotomy k entries.length with hlt | rfl | hgt
  · rw [List.getElem?_append_left hlt] at h
    exact Or.inl h
  · rw [List.getElem?_concat_length] at h
    exact Or.inr ⟨rfl, (Option.some.inj h).symm⟩
  · rw [List.getElem?_eq_none (by simpa using hgt)] at h
    cases h

/-- What stands at a place of a list stands there when the list has more entries. -/
theorem getElem?_append_of_eq_some {β : Type} {entries : List β} {known : β} {k : Nat}
    (h : entries[k]? = some known) (more : List β) : (entries ++ more)[k]? = some known := by
  rw [List.getElem?_append_left (List.getElem?_eq_some_iff.mp h).1]
  exact h

/-- A variable that is added comes to the end of the books and of the model. -/
theorem addVariable (h : Ledger model problem history) (hcreated : problem.isCreated = true)
    (added : Variable α) (state : ε) :
    Ledger (model.addVariable added)
      { problem with
        engine := state
        vars := problem.vars ++ [⟨problem.vars.length, added.name⟩]
        status := .notSolved }
      { history with
        columns := history.columns ++ [(added, ⟨problem.vars.length, added.name⟩)] } := by
  have hlength : history.columns.length = problem.vars.length := by
    rw [h.vars_eq, List.length_map]
  exact { h with
    vars_eq := by rw [List.map_append, ← h.vars_eq]; rfl
    column_eq := fun k known handle hknown => by
      rcases of_getElem?_concat hknown with hold | ⟨rfl, hlast⟩
      · obtain ⟨hhandle, isInteger, hcolumn⟩ := h.column_eq k known handle hold
        exact ⟨hhandle, isInteger, getElem?_append_of_eq_some hcolumn _⟩
      · obtain ⟨rfl, rfl⟩ := Prod.mk.inj hlast
        rw [hlength]
        refine ⟨rfl, known.isInteger, ?_⟩
        rw [Model.addVariable, ← h.length_vars, List.getElem?_concat_length]
    length_vars := by
      rw [Model.addVariable, List.length_append, List.length_append, h.length_vars]
      rfl
    of_not_created := fun hnew => absurd (hnew.symm.trans hcreated) Bool.false_ne_true }

/-- The coefficients of terms that are accepted are those that are given for the variables. -/
theorem coefficientsAt_of_checkTerms {terms : List (Reference × α)} {checked : List (Datum × α)}
    (h : problem.checkTerms terms = .ok checked) (other : Nat) :
    Model.coefficientsAt other checked = termsAt other terms := by
  induction terms generalizing checked with
  | nil => rw [← Except.ok.inj h]; rfl
  | cons term rest ih =>
    obtain ⟨given, amount⟩ := term
    obtain ⟨column, hcolumn, hstep⟩ := bind_eq_ok.mp h
    obtain ⟨coefficient, hreal, hstep⟩ := bind_eq_ok.mp hstep
    obtain ⟨others, hothers, hsame⟩ := bind_eq_ok.mp hstep
    obtain ⟨name, rfl, -⟩ := checkVariable_eq_ok_iff.mp hcolumn
    have hrest := ih hothers
    rw [Model.coefficientsAt, termsAt] at hrest ⊢
    rw [← Except.ok.inj hsame]
    simp only [List.filterMap_cons, hrest, hreal]
    rfl

/-- A constraint that is added comes to the end of the books and of the model, and its terms count in
its row. -/
theorem addConstraint (h : Ledger model problem history) (hcreated : problem.isCreated = true)
    (row : Row α) {terms : List (Reference × α)} {checked : List (Datum × α)}
    (hterms : problem.checkTerms terms = .ok checked) (modifiable : Datum) (state : ε) :
    Ledger (model.addRow row checked)
      { problem with
        engine := state
        constraints := problem.constraints ++ [⟨problem.constraints.length, row.name⟩]
        modifiable := problem.modifiable ++ [modifiable]
        status := .notSolved }
      { history with
        rows := history.rows ++ [(row, ⟨problem.constraints.length, row.name⟩)]
        flags := fun place => history.flags place ++
          if problem.constraints.length = place then [modifiable] else []
        amounts := fun place other => history.amounts place other ++
          if problem.constraints.length = place then termsAt other terms else [] } := by
  have hlength : history.rows.length = problem.constraints.length := by
    rw [h.constraints_eq, List.length_map]
  exact { h with
    constraints_eq := by rw [List.map_append, ← h.constraints_eq]; rfl
    row_eq := fun k known handle hknown => by
      rcases of_getElem?_concat hknown with hold | ⟨rfl, hlast⟩
      · obtain ⟨hhandle, hrow⟩ := h.row_eq k known handle hold
        exact ⟨hhandle, getElem?_append_of_eq_some hrow _⟩
      · obtain ⟨rfl, rfl⟩ := Prod.mk.inj hlast
        rw [hlength]
        refine ⟨rfl, ?_⟩
        rw [Model.addRow, ← h.length_rows, List.getElem?_concat_length]
    length_rows := by
      rw [Model.addRow, List.length_append, List.length_append, h.length_rows]
      rfl
    length_modifiable := by
      rw [List.length_append, List.length_append, h.length_modifiable]
      rfl
    flag_eq := fun place => by
      rw [← h.length_modifiable, List.getLast?_append, ← h.flag_eq place, List.getElem?_append]
      rcases Nat.lt_trichotomy place problem.modifiable.length with hlt | rfl | hgt
      · rw [if_pos hlt, if_neg hlt.ne']
        rfl
      · simp
      · rw [if_neg hgt.not_gt, if_neg hgt.ne, List.getElem?_eq_none (Nat.sub_pos_of_lt hgt),
          List.getElem?_eq_none hgt.le]
        rfl
    entry_eq := fun place other => by
      have hsum : Model.Sums place other model.entries (history.amounts place other) :=
        h.entry_eq place other
      have hadded := hsum.addTerms model.rows.length checked
      rw [coefficientsAt_of_checkTerms hterms, h.length_rows] at hadded
      simp only [Int.natCast_inj] at hadded
      rw [Model.entry?, Model.addRow, h.length_rows]
      exact hadded
    of_not_created := fun hnew => absurd (hnew.symm.trans hcreated) Bool.false_ne_true }

/-- A row whose flag is set has this flag from then on. -/
theorem setModifiable (h : Ledger model problem history) {index : Datum} {row : Nat}
    (hrow : row < problem.modifiable.length) (hindex : index.toInt = .ok (row : Int))
    (modifiable : Datum) :
    Ledger model { problem with modifiable := problem.modifiable.set row modifiable }
      { history with flags := fun place => history.flags place ++
          if index.same (.int place) then [modifiable] else [] } :=
  { h with
    length_modifiable := (List.length_set ..).trans h.length_modifiable
    flag_eq := fun place => by
      rw [List.getLast?_append, ← h.flag_eq place, Datum.same_int_of_toInt hindex, List.getElem?_set]
      by_cases hsame : row = place
      · subst hsame
        simp [hrow]
      · have hother : decide ((row : Int) = place) = false := by
          rw [decide_eq_false_iff_not, Int.natCast_inj]
          exact hsame
        rw [if_neg hsame, hother]
        rfl }

/-- A coefficient that is added counts at its row and column. -/
theorem addCoefficient (h : Ledger model problem history) {row : Nat}
    (hrow : row < problem.modifiable.length) (index column : Datum) (coefficient : α) (state : ε) :
    Ledger (model.addCoefficient index column coefficient)
      { problem with engine := state, status := .notSolved }
      { history with amounts := fun place other => history.amounts place other ++
          if Model.isPlace place other index column then [coefficient] else [] } :=
  { h with
    entry_eq := fun place other => by
      have hsum : Model.Sums place other model.entries (history.amounts place other) :=
        h.entry_eq place other
      exact hsum.accumulate index column coefficient
    of_not_created := fun hnew => by
      -- a problem that was not created has no row to which a coefficient can be added
      have hnone := (h.of_not_created hnew).2.1
      rw [h.length_modifiable, hnone] at hrow
      exact absurd hrow (Nat.not_lt_zero row) }

/-- A call keeps the books and the model what was accepted. -/
theorem perform {engine : Engine ε α} {model : ε → Model α} (h : engine.Appends model)
    {log : Log α} (hledger : Ledger (model problem.engine) problem (.ofLog log)) (call : Call α) :
    Ledger (model (call.perform engine problem).1.engine) (call.perform engine problem).1
      (.ofLog (log ++ [(call, (call.perform engine problem).2)])) := by
  have hcomes := comes_perform engine problem call
  generalize call.perform engine problem = result at hcomes
  cases hcomes with
  | refused hrefused =>
    rw [History.ofLog_error, hrefused.eq_self h]
    exact hledger
  | accepted haccepted =>
    cases haccepted with
    | @create name sense state hnew hengine =>
      obtain ⟨after, hafter, hmodel⟩ := h.create problem.engine sense
      obtain rfl : state = after := congrArg Prod.fst (hengine.symm.trans hafter)
      rw [History.ofLog_silent log rfl rfl (fun _ => rfl) fun _ _ => rfl]
      have hcreated := hledger.create hnew state name sense
      rw [← hmodel] at hcreated
      exact { hcreated with }
    | @addVariable added handle state hcreated hengine hhandle =>
      rw [hhandle, History.ofLog_addVariable]
      have hadded := hledger.addVariable hcreated added state
      rw [← h.addVariable _ _ _ hengine] at hadded
      exact hadded
    | @addConstraint row terms modifiable handle checked state hcreated hterms hengine hhandle =>
      rw [hhandle, History.ofLog_addConstraint]
      have hadded := hledger.addConstraint hcreated row hterms modifiable state
      rw [← h.addRow _ _ _ _ hengine] at hadded
      exact hadded
    | @setModifiable index name modifiable row hindex hplace =>
      obtain ⟨hrow, hint⟩ := of_place hindex hplace
      rw [History.ofLog_setModifiable]
      exact hledger.setModifiable hrow hint modifiable
    | isModifiable | status | ask =>
      rw [History.ofLog_silent log rfl rfl (fun _ => rfl) fun _ _ => rfl]
      exact hledger
    | @addCoefficient row rowName column columnName flag amount coefficient state hrow hcolumn hflag
        htruthy hreal hengine =>
      obtain ⟨place, -, hplace⟩ := of_entry hrow hflag
      have hlt : place < problem.modifiable.length := (List.getElem?_eq_some_iff.mp hplace).1
      rw [History.ofLog_addCoefficient log _ _ _ _ hreal]
      have hadded := hledger.addCoefficient hlt row column coefficient state
      rw [← h.addCoefficient _ _ _ _ _ hengine] at hadded
      exact hadded
    | @setInteger column name isInteger state hcolumn hengine =>
      obtain ⟨place, hmodel⟩ := h.setInteger _ _ _ _ hengine
      rw [History.ofLog_silent log rfl rfl (fun _ => rfl) fun _ _ => rfl]
      have hset := hledger.setInteger place isInteger
      rw [← hmodel] at hset
      exact { hset with }
    | @solve state status hcreated hengine =>
      rw [History.ofLog_silent log rfl rfl (fun _ => rfl) fun _ _ => rfl]
      rw [← h.solve _ _ _ hengine] at hledger
      exact { hledger with }

/-- A variable that was added has its handle for ever. -/
theorem checkVariable_eq (h : Ledger model problem history) {added : Variable α} {handle : Handle}
    (hadded : (added, handle) ∈ history.columns) :
    problem.checkVariable handle.asVariable = .ok (.int handle.index) := by
  obtain ⟨k, hk⟩ := List.getElem?_of_mem hadded
  obtain ⟨rfl, -⟩ := h.column_eq k added handle hk
  have hlt : k < problem.vars.length := by
    rw [h.vars_eq, List.length_map]
    exact (List.getElem?_eq_some_iff.mp hk).1
  exact checkVariable_eq_ok_iff.mpr
    ⟨added.name, rfl, (isIndex_iff rfl).mpr ⟨Int.natCast_nonneg k, Int.ofNat_lt.mpr hlt⟩⟩

/-- A constraint that was added has its handle for ever. -/
theorem checkConstraint_eq (h : Ledger model problem history) {row : Row α} {handle : Handle}
    (hadded : (row, handle) ∈ history.rows) :
    problem.checkConstraint handle.asConstraint = .ok (.int handle.index) := by
  obtain ⟨k, hk⟩ := List.getElem?_of_mem hadded
  obtain ⟨rfl, -⟩ := h.row_eq k row handle hk
  have hlt : k < problem.constraints.length := by
    rw [h.constraints_eq, List.length_map]
    exact (List.getElem?_eq_some_iff.mp hk).1
  exact checkConstraint_eq_ok_iff.mpr
    ⟨row.name, rfl, (isIndex_iff rfl).mpr ⟨Int.natCast_nonneg k, Int.ofNat_lt.mpr hlt⟩⟩

end Ledger

end Problem

end PatternCovering
