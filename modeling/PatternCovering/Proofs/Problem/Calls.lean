import PatternCovering.Proofs.Cover.Changes
import PatternCovering.Proofs.Datum
import PatternCovering.Recorder
import Mathlib.Data.List.Induction

/-!
# Calls on a problem

A problem is used by calls, each of which either does its work or is refused. What a call comes to is
said once, for an engine of which nothing is assumed: a refused call leaves the books alone, and an
accepted one has passed its checks before the engine was asked. The log of a run has its calls with
their outcomes, the refused ones included.
-/

namespace PatternCovering

namespace Problem

/-- A reading of the solution. -/
inductive Query where
  | objective
  | dual (given : Reference)
  | primal (given : Reference)

/-- A call of one of the operations of a problem. -/
inductive Call (α : Type) where
  | create (name : Datum) (sense : Sense)
  | addVariable (added : Variable α)
  | addConstraint (row : Row α) (terms : List (Reference × α)) (modifiable : Datum)
  | setModifiable (given : Reference) (modifiable : Datum)
  | isModifiable (given : Reference)
  | addCoefficient (row column : Reference) (amount : α)
  | setInteger (given : Reference) (isInteger : Datum)
  | solve
  | status
  | ask (query : Query)

/-- What an accepted call gives. -/
inductive Answer (α : Type) where
  | done
  | added (handle : Handle)
  | flag (given : Datum)
  | status (status : Status)
  | value (value : Option α)

/-- The calls that were made, with their outcomes. -/
abbrev Log (α : Type) := List (Call α × Except Fault (Answer α))

variable {ε α : Type}

/-- What an operation comes to that changes a problem or refuses to: refused, it leaves the problem. -/
def orLeave (problem : Problem ε) :
    Except Fault (Problem ε × Answer α) → Problem ε × Except Fault (Answer α)
  | .error fault => (problem, .error fault)
  | .ok (changed, answer) => (changed, .ok answer)

variable [Quantity α] {engine : Engine ε α} {problem : Problem ε}

/-- What a reading gives. -/
def Query.ask (engine : Engine ε α) (problem : Problem ε) : Query → Except Fault (Option α)
  | .objective => problem.objective engine
  | .dual given => (problem.dual engine given).map some
  | .primal given => (problem.primal engine given).map some

/-- The problem after a call, and what the call gives or why it is refused. -/
def Call.perform (engine : Engine ε α) (problem : Problem ε) :
    Call α → Problem ε × Except Fault (Answer α)
  | .create name sense =>
    let (created, outcome) := problem.create engine name sense
    (created, outcome.map fun _ => .done)
  | .addVariable added =>
    problem.orLeave ((problem.addVariable engine added).map fun (extended, handle) =>
      (extended, .added handle))
  | .addConstraint row terms modifiable =>
    let (extended, outcome) := problem.addConstraint engine row terms modifiable
    (extended, outcome.map .added)
  | .setModifiable given modifiable =>
    problem.orLeave ((problem.setModifiable given modifiable).map fun changed => (changed, .done))
  | .isModifiable given => (problem, (problem.modifiableAt given).map .flag)
  | .addCoefficient row column amount =>
    let (changed, outcome) := problem.addCoefficient engine row column amount
    (changed, outcome.map fun _ => .done)
  | .setInteger given isInteger =>
    problem.orLeave ((problem.setInteger engine given isInteger).map fun changed =>
      (changed, .done))
  | .solve =>
    let (solved, outcome) := problem.solve engine
    (solved, outcome.map .status)
  | .status => (problem, .ok (.status problem.status))
  | .ask query => (problem, (query.ask engine problem).map .value)

/-- The problem after some calls made one after the other, and their log. -/
def performAll (engine : Engine ε α) (start : Problem ε) (calls : List (Call α)) :
    Problem ε × Log α :=
  calls.foldl (fun (problem, log) call =>
    let (after, outcome) := call.perform engine problem
    (after, log ++ [(call, outcome)])) (start, [])

/-- What holds before any call, and after a call if it did so before, holds after all calls. -/
theorem performAll_keeps {start : Problem ε} {P : Problem ε → Log α → Prop} (hstart : P start [])
    (hstep : ∀ problem log (call : Call α), P problem log →
      P (call.perform engine problem).1 (log ++ [(call, (call.perform engine problem).2)]))
    (calls : List (Call α)) :
    P (performAll engine start calls).1 (performAll engine start calls).2 := by
  induction calls using List.reverseRecOn with
  | nil => exact hstart
  | append_singleton calls call ih =>
    have hnext := hstep _ _ call ih
    rw [performAll, List.foldl_append]
    exact hnext

/-- Whether an index is one of a number of handles: it is not below zero and not beyond the last
one. -/
structure IsIndex (count : Nat) (index : Datum) : Prop where
  nonneg : index.lt (.int 0) = .ok false
  lt : (Datum.int count).le index = .ok false

/-- An index is accepted exactly if it is one of the handles. -/
theorem checkIndex_eq_ok_iff {count : Nat} {index checked : Datum} {unknown : Fault} :
    checkIndex count index unknown = .ok checked ↔ IsIndex count index ∧ checked = index := by
  constructor
  · intro h
    have hsame := of_checkIndex h
    obtain ⟨below, hbelow, h⟩ := bind_eq_ok.mp h
    cases below with
    | true => cases h
    | false =>
      obtain ⟨beyond, hbeyond, h⟩ := bind_eq_ok.mp h
      cases beyond with
      | true => cases h
      | false => exact ⟨⟨hbelow, hbeyond⟩, hsame⟩
  · rintro ⟨⟨hbelow, hbeyond⟩, rfl⟩
    rw [checkIndex, hbelow]
    change (do if ← (Datum.int count).le checked then _ else _) = _
    rw [hbeyond]
    rfl

/-- Whether a reference is a handle of one of a number of variables. -/
def IsVariable (count : Nat) (given : Reference) : Prop :=
  ∃ index name, given = .ofVariable index name ∧ IsIndex count index

/-- Whether a reference is a handle of one of a number of constraints. -/
def IsConstraint (count : Nat) (given : Reference) : Prop :=
  ∃ index name, given = .ofConstraint index name ∧ IsIndex count index

/-- A reference is accepted for a variable exactly if it is the handle of one. -/
theorem checkVariable_eq_ok_iff {given : Reference} {index : Datum} :
    problem.checkVariable given = .ok index ↔
      ∃ name, given = .ofVariable index name ∧ IsIndex problem.vars.length index := by
  cases given with
  | ofVariable known name =>
    rw [checkVariable, checkIndex_eq_ok_iff]
    constructor
    · rintro ⟨hknown, rfl⟩
      exact ⟨name, rfl, hknown⟩
    · rintro ⟨other, ⟨⟩, hknown⟩
      exact ⟨hknown, rfl⟩
  | ofConstraint | ofData => exact iff_of_false nofun nofun

/-- A reference is accepted for a constraint exactly if it is the handle of one. -/
theorem checkConstraint_eq_ok_iff {given : Reference} {index : Datum} :
    problem.checkConstraint given = .ok index ↔
      ∃ name, given = .ofConstraint index name ∧ IsIndex problem.constraints.length index := by
  cases given with
  | ofConstraint known name =>
    rw [checkConstraint, checkIndex_eq_ok_iff]
    constructor
    · rintro ⟨hknown, rfl⟩
      exact ⟨name, rfl, hknown⟩
    · rintro ⟨other, ⟨⟩, hknown⟩
      exact ⟨hknown, rfl⟩
  | ofVariable | ofData => exact iff_of_false nofun nofun

/-- What a call has passed when it is accepted, what it gives, and the problem that it leaves. -/
inductive Accepts (engine : Engine ε α) (problem : Problem ε) :
    Call α → Answer α → Problem ε → Prop
  | create {name : Datum} {sense : Sense} {state : ε} (hnew : problem.isCreated = false)
    (hengine : engine.create problem.engine sense = (state, .ok ())) :
    Accepts engine problem (.create name sense) .done
      ({ problem with engine := state, name, sense }.record (.problemCreated name sense))
  | addVariable {added : Variable α} {handle : Handle} {state : ε}
    (hcreated : problem.isCreated = true)
    (hengine : engine.addVariable problem.engine added = .ok state)
    (hhandle : handle = ⟨problem.vars.length, added.name⟩) :
    Accepts engine problem (.addVariable added) (.added handle)
      { problem with engine := state, vars := problem.vars ++ [handle], status := .notSolved }
  | addConstraint {row : Row α} {terms : List (Reference × α)} {modifiable : Datum}
    {handle : Handle} {checked : List (Datum × α)} {state : ε}
    (hcreated : problem.isCreated = true) (hterms : problem.checkTerms terms = .ok checked)
    (hengine : engine.addRow problem.engine row checked = (state, .ok ()))
    (hhandle : handle = ⟨problem.constraints.length, row.name⟩) :
    Accepts engine problem (.addConstraint row terms modifiable) (.added handle)
      { problem with
        engine := state
        constraints := problem.constraints ++ [handle]
        modifiable := problem.modifiable ++ [modifiable]
        status := .notSolved }
  | setModifiable {index name modifiable : Datum} {row : Nat}
    (hindex : IsIndex problem.constraints.length index)
    (hplace : Position.place problem.modifiable.length index = .ok row) :
    Accepts engine problem (.setModifiable (.ofConstraint index name) modifiable) .done
      { problem with modifiable := problem.modifiable.set row modifiable }
  | isModifiable {index name flag : Datum} (hindex : IsIndex problem.constraints.length index)
    (hflag : Position.entry problem.modifiable index = .ok flag) :
    Accepts engine problem (.isModifiable (.ofConstraint index name)) (.flag flag) problem
  | addCoefficient {row rowName column columnName flag : Datum} {amount coefficient : α}
    {state : ε} (hrow : IsIndex problem.constraints.length row)
    (hcolumn : IsIndex problem.vars.length column)
    (hflag : Position.entry problem.modifiable row = .ok flag) (htruthy : flag.truthy = true)
    (hreal : Quantity.real? amount = .ok coefficient)
    (hengine : engine.addCoefficient problem.engine row column coefficient = (state, .ok ())) :
    Accepts engine problem
      (.addCoefficient (.ofConstraint row rowName) (.ofVariable column columnName) amount) .done
      { problem with engine := state, status := .notSolved }
  | setInteger {column name isInteger : Datum} {state : ε}
    (hcolumn : IsIndex problem.vars.length column)
    (hengine : engine.setInteger problem.engine column isInteger = .ok state) :
    Accepts engine problem (.setInteger (.ofVariable column name) isInteger) .done
      { problem with engine := state, status := .notSolved }
  | solve {state : ε} {status : Status} (hcreated : problem.isCreated = true)
    (hengine : engine.solve problem.engine = (state, .ok status)) :
    Accepts engine problem .solve (.status status)
      ({ problem with engine := state, status }.record (.problemSolved problem.name status))
  | status : Accepts engine problem .status (.status problem.status) problem
  | ask {query : Query} {value : Option α} (hasked : query.ask engine problem = .ok value) :
    Accepts engine problem (.ask query) (.value value) problem

/-- Where a call is refused, and the problem that it leaves: a check refuses it, or the engine fails,
which may have changed on the way. The books are kept, but for the name and the sense of a problem that
the engine has failed to create. -/
inductive Refuses (engine : Engine ε α) (problem : Problem ε) :
    Call α → Fault → Problem ε → Prop
  | unchanged {call : Call α} {fault : Fault} : Refuses engine problem call fault problem
  | create {name : Datum} {sense : Sense} {state : ε} {fault : Fault}
    (hnew : problem.isCreated = false)
    (hengine : engine.create problem.engine sense = (state, .error fault)) :
    Refuses engine problem (.create name sense) fault
      { problem with engine := state, name, sense }
  | addConstraint {row : Row α} {terms : List (Reference × α)} {modifiable : Datum}
    {checked : List (Datum × α)} {state : ε} {fault : Fault}
    (hengine : engine.addRow problem.engine row checked = (state, .error fault)) :
    Refuses engine problem (.addConstraint row terms modifiable) fault
      { problem with engine := state }
  | addCoefficient {row column : Reference} {amount coefficient : α} {place other : Datum}
    {state : ε} {fault : Fault}
    (hengine :
      engine.addCoefficient problem.engine place other coefficient = (state, .error fault)) :
    Refuses engine problem (.addCoefficient row column amount) fault { problem with engine := state }
  | solve {state : ε} {fault : Fault}
    (hengine : engine.solve problem.engine = (state, .error fault)) :
    Refuses engine problem .solve fault { problem with engine := state }

/-- What a call comes to: it is refused, or it is accepted. -/
inductive Comes (engine : Engine ε α) (problem : Problem ε) (call : Call α) :
    Problem ε × Except Fault (Answer α) → Prop
  | refused {fault : Fault} {after : Problem ε} (h : Refuses engine problem call fault after) :
    Comes engine problem call (after, .error fault)
  | accepted {answer : Answer α} {after : Problem ε} (h : Accepts engine problem call answer after) :
    Comes engine problem call (after, .ok answer)

/-- What adding a constraint comes to. -/
theorem comes_addConstraint (engine : Engine ε α) (problem : Problem ε) (row : Row α)
    (terms : List (Reference × α)) (modifiable : Datum) :
    Comes engine problem (.addConstraint row terms modifiable)
      ((Call.addConstraint row terms modifiable).perform engine problem) := by
  simp only [Call.perform, Problem.addConstraint]
  rcases hparts : problem.checkConstraintParts row terms modifiable with fault | checked
  · exact .refused .unchanged
  · obtain ⟨_, hrow, hterms⟩ := bind_eq_ok.mp hparts
    obtain ⟨_, hcreated, -⟩ := bind_eq_ok.mp hrow
    simp only
    rcases hengine : engine.addRow problem.engine row checked with ⟨state, fault | done⟩
    · exact .refused (.addConstraint hengine)
    · exact .accepted (.addConstraint (isCreated_of_requireCreated hcreated) hterms hengine rfl)

/-- What adding a coefficient comes to. -/
theorem comes_addCoefficient (engine : Engine ε α) (problem : Problem ε) (row column : Reference)
    (amount : α) :
    Comes engine problem (.addCoefficient row column amount)
      ((Call.addCoefficient row column amount).perform engine problem) := by
  simp only [Call.perform, Problem.addCoefficient]
  rcases hentry : problem.checkEntry row column with fault | ⟨rowIndex, columnIndex⟩
  · exact .refused .unchanged
  · obtain ⟨known, hrow, hpassed⟩ := bind_eq_ok.mp hentry
    obtain ⟨other, hcolumn, hpassed⟩ := bind_eq_ok.mp hpassed
    obtain ⟨flag, hmodifiable, hpassed⟩ := bind_eq_ok.mp hpassed
    split at hpassed
    · next htruthy =>
      obtain ⟨rfl, rfl⟩ := Prod.mk.inj (Except.ok.inj hpassed)
      obtain ⟨place, hplace, hflag⟩ := bind_eq_ok.mp hmodifiable
      obtain rfl := Except.ok.inj (hplace.symm.trans hrow)
      obtain ⟨rowName, rfl, hrowIndex⟩ := checkConstraint_eq_ok_iff.mp hrow
      obtain ⟨columnName, rfl, hcolumnIndex⟩ := checkVariable_eq_ok_iff.mp hcolumn
      rcases hreal : Quantity.real? amount with fault | coefficient
      · exact .refused .unchanged
      · simp only
        rcases hengine : engine.addCoefficient problem.engine place other coefficient with
          ⟨state, fault | done⟩
        · exact .refused (.addCoefficient hengine)
        · exact .accepted (.addCoefficient hrowIndex hcolumnIndex hflag htruthy hreal hengine)
    · cases hpassed

/-- A call comes to a refusal or to its work. -/
theorem comes_perform (engine : Engine ε α) (problem : Problem ε) (call : Call α) :
    Comes engine problem call (call.perform engine problem) := by
  cases call with
  | create name sense =>
    simp only [Call.perform, Problem.create]
    split
    · exact .refused .unchanged
    · next hnew =>
      rcases hengine : engine.create problem.engine sense with ⟨state, fault | done⟩
      · exact .refused (.create (by simpa using hnew) hengine)
      · exact .accepted (.create (by simpa using hnew) hengine)
  | addVariable added =>
    simp only [Call.perform]
    rcases hadded : problem.addVariable engine added with fault | ⟨extended, handle⟩
    · exact .refused .unchanged
    · obtain ⟨hhandle, state, hengine, rfl⟩ := of_addVariable hadded
      obtain ⟨_, hcreated, -⟩ := bind_eq_ok.mp hadded
      exact .accepted (.addVariable (isCreated_of_requireCreated hcreated) hengine hhandle)
  | addConstraint row terms modifiable => exact comes_addConstraint engine problem row terms modifiable
  | setModifiable given modifiable =>
    simp only [Call.perform]
    rcases hset : problem.setModifiable given modifiable with fault | changed
    · exact .refused .unchanged
    · obtain ⟨index, hchecked, hplaced⟩ := bind_eq_ok.mp hset
      obtain ⟨row, hplace, hchanged⟩ := bind_eq_ok.mp hplaced
      obtain ⟨name, rfl, hindex⟩ := checkConstraint_eq_ok_iff.mp hchecked
      obtain rfl := Except.ok.inj hchanged
      exact .accepted (.setModifiable hindex hplace)
  | isModifiable given =>
    simp only [Call.perform]
    rcases hflag : problem.modifiableAt given with fault | flag
    · exact .refused .unchanged
    · obtain ⟨index, hchecked, hfound⟩ := bind_eq_ok.mp hflag
      obtain ⟨name, rfl, hindex⟩ := checkConstraint_eq_ok_iff.mp hchecked
      exact .accepted (.isModifiable hindex hfound)
  | addCoefficient row column amount => exact comes_addCoefficient engine problem row column amount
  | setInteger given isInteger =>
    simp only [Call.perform]
    rcases hset : problem.setInteger engine given isInteger with fault | changed
    · exact .refused .unchanged
    · obtain ⟨column, hchecked, hasked⟩ := bind_eq_ok.mp hset
      obtain ⟨state, hengine, hchanged⟩ := bind_eq_ok.mp hasked
      obtain ⟨name, rfl, hcolumn⟩ := checkVariable_eq_ok_iff.mp hchecked
      obtain rfl := Except.ok.inj hchanged
      exact .accepted (.setInteger hcolumn hengine)
  | solve =>
    simp only [Call.perform, Problem.solve]
    rcases hcreated : problem.requireCreated with fault | done
    · exact .refused .unchanged
    · rcases hengine : engine.solve problem.engine with ⟨state, fault | status⟩
      · exact .refused (.solve hengine)
      · exact .accepted (.solve (isCreated_of_requireCreated hcreated) hengine)
  | status => exact .accepted .status
  | ask query =>
    simp only [Call.perform]
    rcases hasked : query.ask engine problem with fault | value
    · exact .refused .unchanged
    · exact .accepted (.ask hasked)

end Problem

end PatternCovering
