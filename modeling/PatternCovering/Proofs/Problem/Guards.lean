import PatternCovering.Proofs.Problem.Ledger

/-!
# What stands between a caller and an engine

A problem refuses what is no handle of its own wherever a handle is expected, and a coefficient for a
row that is not modifiable; over an engine that stays as it was where it refuses, nothing has changed
then. Together with the books this says what a run of calls comes to.
-/

namespace PatternCovering

namespace Problem

variable {ε α : Type}

/-- The references that a call takes as variables. -/
def Call.asVariables : Call α → List Reference
  | .addConstraint _ terms _ => terms.map (·.1)
  | .addCoefficient _ column _ => [column]
  | .setInteger given _ => [given]
  | .ask (.primal given) => [given]
  | _ => []

/-- The references that a call takes as constraints. -/
def Call.asConstraints : Call α → List Reference
  | .setModifiable given _ => [given]
  | .isModifiable given => [given]
  | .addCoefficient row _ _ => [row]
  | .ask (.dual given) => [given]
  | _ => []

variable [Quantity α]

/-- Whether the index of a reference is none of a number of handles: the reference is of another kind,
or its index stands for an integer out of range. -/
def IsForeign (count : Nat) (index? : Option Datum) : Prop :=
  index? = none ∨ ∃ index i, index? = some index ∧ index.toInt = .ok i ∧ (i < 0 ∨ (count : Int) ≤ i)

/-- A handle in range is not foreign. -/
theorem not_isForeign {count : Nat} {index : Datum} (h : IsIndex count index) :
    ¬ IsForeign count (some index) := by
  rintro (⟨⟨⟩⟩ | ⟨known, i, ⟨⟩, hi, hrange⟩)
  obtain ⟨hnonneg, hlt⟩ := (isIndex_iff hi).mp h
  omega

/-- The variables of terms that are accepted are in range. -/
theorem isVariable_of_checkTerms {problem : Problem ε} {terms : List (Reference × α)}
    {checked : List (Datum × α)} (h : problem.checkTerms terms = .ok checked) :
    ∀ term ∈ terms, IsVariable problem.vars.length term.1 := by
  induction terms generalizing checked with
  | nil => simp
  | cons term rest ih =>
    obtain ⟨given, amount⟩ := term
    obtain ⟨column, hcolumn, hstep⟩ := bind_eq_ok.mp h
    obtain ⟨coefficient, -, hstep⟩ := bind_eq_ok.mp hstep
    obtain ⟨others, hothers, -⟩ := bind_eq_ok.mp hstep
    obtain ⟨name, rfl, hindex⟩ := checkVariable_eq_ok_iff.mp hcolumn
    exact List.forall_mem_cons.mpr ⟨⟨column, name, rfl, hindex⟩, ih hothers⟩

namespace Accepts

variable {engine : Engine ε α} {problem after : Problem ε} {call : Call α} {answer : Answer α}

/-- An accepted call takes only variables of the problem as variables. -/
theorem isVariable (h : Accepts engine problem call answer after) :
    ∀ given ∈ call.asVariables, IsVariable problem.vars.length given := by
  cases h with
  | addConstraint hcreated hterms hengine hhandle =>
    exact List.forall_mem_map.mpr (isVariable_of_checkTerms hterms)
  | addCoefficient hrow hcolumn hflag htruthy hreal hengine =>
    exact List.forall_mem_singleton.mpr ⟨_, _, rfl, hcolumn⟩
  | setInteger hcolumn hengine => exact List.forall_mem_singleton.mpr ⟨_, _, rfl, hcolumn⟩
  | @ask query value hasked =>
    cases query with
    | objective | dual => exact fun _ hnone => nomatch hnone
    | primal given =>
      obtain ⟨found, hfound, -⟩ := map_eq_ok.mp hasked
      obtain ⟨column, hcolumn, -⟩ := bind_eq_ok.mp hfound
      obtain ⟨name, hgiven, hindex⟩ := checkVariable_eq_ok_iff.mp hcolumn
      exact List.forall_mem_singleton.mpr ⟨column, name, hgiven, hindex⟩
  | create | addVariable | setModifiable | isModifiable | solve | status =>
    exact fun _ hnone => nomatch hnone

/-- An accepted call takes only constraints of the problem as constraints. -/
theorem isConstraint (h : Accepts engine problem call answer after) :
    ∀ given ∈ call.asConstraints, IsConstraint problem.constraints.length given := by
  cases h with
  | setModifiable hindex hplace => exact List.forall_mem_singleton.mpr ⟨_, _, rfl, hindex⟩
  | isModifiable hindex hflag => exact List.forall_mem_singleton.mpr ⟨_, _, rfl, hindex⟩
  | addCoefficient hrow hcolumn hflag htruthy hreal hengine =>
    exact List.forall_mem_singleton.mpr ⟨_, _, rfl, hrow⟩
  | @ask query value hasked =>
    cases query with
    | objective | primal => exact fun _ hnone => nomatch hnone
    | dual given =>
      obtain ⟨found, hfound, -⟩ := map_eq_ok.mp hasked
      obtain ⟨row, hrow, -⟩ := bind_eq_ok.mp hfound
      obtain ⟨name, hgiven, hindex⟩ := checkConstraint_eq_ok_iff.mp hrow
      exact List.forall_mem_singleton.mpr ⟨row, name, hgiven, hindex⟩
  | create | addVariable | addConstraint | setInteger | solve | status =>
    exact fun _ hnone => nomatch hnone

end Accepts

/-- What stands between a caller and the engine of a problem. -/
structure Guards (engine : Engine ε α) (problem : Problem ε) : Prop where
  /-- What is no variable of the problem is refused wherever a variable is expected. -/
  refuses_variable : ∀ call : Call α, ∀ given ∈ call.asVariables,
    IsForeign problem.vars.length (variableIndex? given) →
      ∃ fault, (call.perform engine problem).2 = .error fault
  /-- What is no constraint of the problem is refused wherever a constraint is expected. -/
  refuses_constraint : ∀ call : Call α, ∀ given ∈ call.asConstraints,
    IsForeign problem.constraints.length (constraintIndex? given) →
      ∃ fault, (call.perform engine problem).2 = .error fault
  /-- A coefficient is added only to a row that is modifiable. -/
  modifiable_of_added : ∀ (row column : Reference) (amount : α) (answer : Answer α),
    ((Call.addCoefficient row column amount).perform engine problem).2 = .ok answer →
      ∃ place flag, standsAt place (constraintIndex? row) = true ∧
        problem.modifiable[place]? = some flag ∧ flag.truthy = true
  /-- A refused call leaves the books and the engine as they were. -/
  unchanged_of_refused : ∀ (call : Call α) (fault : Fault),
    (call.perform engine problem).2 = .error fault → (call.perform engine problem).1 = problem

/-- A call that cannot be accepted is refused. -/
theorem exists_fault_of_not_accepts {engine : Engine ε α} {problem : Problem ε} {call : Call α}
    (h : ∀ answer after, ¬ Accepts engine problem call answer after) :
    ∃ fault, (call.perform engine problem).2 = .error fault := by
  have hcomes := comes_perform engine problem call
  generalize call.perform engine problem = result at hcomes
  cases hcomes with
  | refused hrefused => exact ⟨_, rfl⟩
  | accepted haccepted => exact absurd haccepted (h _ _)

/-- A problem guards every engine that stays as it was where it refuses. -/
theorem guards {engine : Engine ε α} {model : ε → Model α} (h : engine.Appends model)
    (problem : Problem ε) : Guards engine problem where
  refuses_variable call given hgiven hforeign := by
    refine exists_fault_of_not_accepts fun answer after haccepts => ?_
    obtain ⟨index, name, rfl, hindex⟩ := haccepts.isVariable given hgiven
    exact not_isForeign hindex hforeign
  refuses_constraint call given hgiven hforeign := by
    refine exists_fault_of_not_accepts fun answer after haccepts => ?_
    obtain ⟨index, name, rfl, hindex⟩ := haccepts.isConstraint given hgiven
    exact not_isForeign hindex hforeign
  modifiable_of_added row column amount answer hadded := by
    have hcomes := comes_perform engine problem (.addCoefficient row column amount)
    generalize (Call.addCoefficient row column amount).perform engine problem = result
      at hcomes hadded
    cases hcomes with
    | refused hrefused => cases hadded
    | accepted haccepted =>
      cases haccepted with
      | addCoefficient hrow hcolumn hflag htruthy hreal hengine =>
        obtain ⟨place, hplace, hfound⟩ := of_entry hrow hflag
        refine ⟨place, _, ?_, hfound, htruthy⟩
        rw [constraintIndex?, standsAt, Option.any_some, Datum.same_int_of_toInt hplace]
        exact decide_eq_true rfl
  unchanged_of_refused call fault hfault := by
    have hcomes := comes_perform engine problem call
    generalize call.perform engine problem = result at hcomes hfault
    cases hcomes with
    | refused hrefused => exact hrefused.eq_self h
    | accepted haccepted => cases hfault

/-- Whether the books of a problem and the model of its engine are what a log says, every handle that
was given is valid, and nothing that is refused or not allowed reaches the engine. -/
structure IsFaithful (engine : Engine ε α) (model : ε → Model α) (problem : Problem ε)
    (log : Log α) : Prop extends
    Ledger (model problem.engine) problem (History.ofLog log), Guards engine problem where
  valid_variable : ∀ added handle, (added, handle) ∈ (History.ofLog log).columns →
    problem.checkVariable handle.asVariable = .ok (.int handle.index)
  valid_constraint : ∀ row handle, (row, handle) ∈ (History.ofLog log).rows →
    problem.checkConstraint handle.asConstraint = .ok (.int handle.index)

/-- Whatever calls are made on a new problem over an engine that takes what it is told or refuses it
without a change: the handles are those of the columns and rows of the model in the order in which they
were added, and stay valid; each row has the flag that was last given for it; each entry is the sum,
from zero on and from left to right, of the coefficients that were given for it; a handle of the wrong
kind or out of range is refused; a coefficient is added only to a row that is modifiable then; and what
is refused leaves the books and the engine as they were. -/
theorem isFaithful_performAll {engine : Engine ε α} {model : ε → Model α} (h : engine.Appends model)
    {state : ε} (hempty : model state = {}) (listener : Listener) (calls : List (Call α)) :
    IsFaithful engine model (performAll engine { engine := state, listener } calls).1
      (performAll engine { engine := state, listener } calls).2 := by
  have hledger : Ledger (model (performAll engine { engine := state, listener } calls).1.engine)
      (performAll engine { engine := state, listener } calls).1
      (History.ofLog (performAll engine { engine := state, listener } calls).2) := by
    refine performAll_keeps (P := fun problem log =>
      Ledger (model problem.engine) problem (History.ofLog log)) ?_ ?_ calls
    · rw [hempty]
      exact .empty state listener
    · exact fun problem log call hledger => hledger.perform h call
  exact { toLedger := hledger
          toGuards := guards h _
          valid_variable := fun added handle hadded => hledger.checkVariable_eq hadded
          valid_constraint := fun row handle hadded => hledger.checkConstraint_eq hadded }

/-- Two variables and a row that has the second one twice among its terms; then a coefficient is added,
one is refused for its row, the row is fixed, and another one is refused. -/
def mixedCalls : List (Call Rat) :=
  [.create (.text "mixed") .minimize,
    .addVariable ⟨.text "first", some 0, none, 1, .flag false⟩,
    .addVariable ⟨.text "second", some 0, some 8, 2, .flag false⟩,
    .addConstraint ⟨.text "row", some 1, none⟩
      [(.ofVariable (.int 1) .null, 2), (.ofVariable (.flag true) .null, 3)] (.flag true),
    .addCoefficient (.ofConstraint (.int 0) .null) (.ofVariable (.int 1) .null) 4,
    .addCoefficient (.ofConstraint (.int 1) .null) (.ofVariable (.int 1) .null) 5,
    .setModifiable (.ofConstraint (.int 0) .null) (.flag false),
    .addCoefficient (.ofConstraint (.int 0) .null) (.ofVariable (.int 1) .null) 6]

/-- What a recorder has made of these calls, with their log. -/
def mixedRun : Problem (Recorder Rat) × Log Rat :=
  performAll Recorder.engine { engine := { script := [], primal := usualValue } } mixedCalls

/-- The entry is the sum of the coefficients of the accepted calls. -/
theorem isFaithful_mixedCalls :
    mixedRun.2.map (·.2.isOk) = [true, true, true, true, true, false, true, false] ∧
      mixedRun.1.engine.model.entry? (.int 0) (.int 1) = some 9 ∧
      IsFaithful Recorder.engine (·.model) mixedRun.1 mixedRun.2 :=
  ⟨by decide +kernel, by decide +kernel,
    isFaithful_performAll Recorder.appends rfl Listener.deaf mixedCalls⟩

end Problem

end PatternCovering
