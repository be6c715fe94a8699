import PatternCovering.Proofs.Model.Entries
import PatternCovering.Proofs.Problem.Calls

/-!
# What was accepted according to a log

The log of a run says which variables and constraints were accepted, with the handles that were given
for them, which flags were given for each row, and which coefficients for each row and column. A call
adds to one or several of these at their end, and a refused one to none.
-/

namespace PatternCovering

namespace Problem

variable {ε α : Type}

/-- The index that a reference has as a variable. -/
def variableIndex? : Reference → Option Datum
  | .ofVariable index _ => some index
  | _ => none

/-- The index that a reference has as a constraint. -/
def constraintIndex? : Reference → Option Datum
  | .ofConstraint index _ => some index
  | _ => none

/-- Whether a reference stands for the variable or constraint at a place. -/
def standsAt (place : Nat) (index? : Option Datum) : Bool :=
  index?.any (·.same (.int place))

/-- The variable that an entry of a log has added, with its handle. -/
def addedVariable? : Call α × Except Fault (Answer α) → Option (Variable α × Handle)
  | (.addVariable added, .ok (.added handle)) => some (added, handle)
  | _ => none

/-- The row that an entry of a log has added, with its handle. -/
def addedConstraint? : Call α × Except Fault (Answer α) → Option (Row α × Handle)
  | (.addConstraint row _ _, .ok (.added handle)) => some (row, handle)
  | _ => none

/-- What an entry of a log says about whether coefficients may be added to a row. -/
def flagAt? (place : Nat) : Call α × Except Fault (Answer α) → Option Datum
  | (.addConstraint _ _ modifiable, .ok (.added handle)) =>
    if handle.index = place then some modifiable else none
  | (.setModifiable given modifiable, .ok _) =>
    if standsAt place (constraintIndex? given) then some modifiable else none
  | _ => none

variable [Quantity α]

/-- The coefficients that some terms give for a variable. -/
def termsAt (other : Nat) (terms : List (Reference × α)) : List α :=
  terms.filterMap fun (given, amount) =>
    if standsAt other (variableIndex? given) then (Quantity.real? amount).toOption else none

/-- The coefficients that an entry of a log gives for a row and a column. -/
def amountsAt (place other : Nat) : Call α × Except Fault (Answer α) → List α
  | (.addConstraint _ terms _, .ok (.added handle)) =>
    if handle.index = place then termsAt other terms else []
  | (.addCoefficient row column amount, .ok _) =>
    if standsAt place (constraintIndex? row) && standsAt other (variableIndex? column) then
      (Quantity.real? amount).toOption.toList
    else []
  | _ => []

/-- What was accepted: the variables and the constraints with the handles that were given for them,
the flags that were given for each row, and the coefficients for each row and column, each of these in
the order of the calls. -/
structure History (α : Type) where
  columns : List (Variable α × Handle)
  rows : List (Row α × Handle)
  flags : (place : Nat) → List Datum
  amounts : (place other : Nat) → List α

namespace History

/-- What was accepted according to a log. -/
def ofLog (log : Log α) : History α where
  columns := log.filterMap addedVariable?
  rows := log.filterMap addedConstraint?
  flags place := log.filterMap (flagAt? place)
  amounts place other := log.flatMap (amountsAt place other)

/-- What a further entry of a log adds. -/
theorem ofLog_concat (log : Log α) (entry : Call α × Except Fault (Answer α)) :
    ofLog (log ++ [entry]) =
      { columns := (ofLog log).columns ++ (addedVariable? entry).toList
        rows := (ofLog log).rows ++ (addedConstraint? entry).toList
        flags := fun place => (ofLog log).flags place ++ (flagAt? place entry).toList
        amounts := fun place other =>
          (ofLog log).amounts place other ++ amountsAt place other entry } := by
  have hsingle : ∀ {β : Type} (read : Call α × Except Fault (Answer α) → Option β),
      [entry].filterMap read = (read entry).toList := fun read => by
    cases hread : read entry <;> simp [hread]
  simp only [ofLog, List.filterMap_append, List.flatMap_append, List.flatMap_singleton, hsingle]

/-- An entry that says nothing adds nothing. -/
theorem ofLog_silent (log : Log α) {entry : Call α × Except Fault (Answer α)}
    (hcolumn : addedVariable? entry = none) (hrow : addedConstraint? entry = none)
    (hflag : ∀ place, flagAt? place entry = none)
    (hamounts : ∀ place other, amountsAt place other entry = []) :
    ofLog (log ++ [entry]) = ofLog log := by
  simp only [ofLog_concat, hcolumn, hrow, hflag, hamounts, Option.toList_none, List.append_nil]

/-- A refused call adds nothing. -/
theorem ofLog_error (log : Log α) (call : Call α) (fault : Fault) :
    ofLog (log ++ [(call, .error fault)]) = ofLog log := by
  cases call <;> exact ofLog_silent log rfl rfl (fun _ => rfl) fun _ _ => rfl

/-- A variable that is added comes to the end of the variables. -/
theorem ofLog_addVariable (log : Log α) (added : Variable α) (handle : Handle) :
    ofLog (log ++ [(.addVariable added, .ok (.added handle))]) =
      { ofLog log with columns := (ofLog log).columns ++ [(added, handle)] } := by
  simp only [ofLog_concat, addedVariable?, addedConstraint?, flagAt?, amountsAt, Option.toList_none,
    Option.toList_some, List.append_nil]

/-- A constraint that is added comes to the end of the constraints, with its flag and its terms. -/
theorem ofLog_addConstraint (log : Log α) (row : Row α) (terms : List (Reference × α))
    (modifiable : Datum) (handle : Handle) :
    ofLog (log ++ [(.addConstraint row terms modifiable, .ok (.added handle))]) =
      { ofLog log with
        rows := (ofLog log).rows ++ [(row, handle)]
        flags := fun place => (ofLog log).flags place ++
          if handle.index = place then [modifiable] else []
        amounts := fun place other => (ofLog log).amounts place other ++
          if handle.index = place then termsAt other terms else [] } := by
  simp only [ofLog_concat, addedVariable?, addedConstraint?, flagAt?, amountsAt, Option.toList_none,
    Option.toList_some, List.append_nil, apply_ite Option.toList]

/-- A flag that is set comes to the end of the flags of its row. -/
theorem ofLog_setModifiable (log : Log α) (index name modifiable : Datum) :
    ofLog (log ++ [(.setModifiable (.ofConstraint index name) modifiable, .ok .done)]) =
      { ofLog log with
        flags := fun place => (ofLog log).flags place ++
          if index.same (.int place) then [modifiable] else [] } := by
  simp only [ofLog_concat, addedVariable?, addedConstraint?, flagAt?, amountsAt, constraintIndex?,
    standsAt, Option.any_some, Option.toList_none, List.append_nil]
  congr 1
  funext place
  by_cases hsame : index.same (.int place) = true <;> simp only [hsame] <;> rfl

/-- A coefficient that is added comes to the end of the coefficients of its row and column. -/
theorem ofLog_addCoefficient (log : Log α) (row rowName column columnName : Datum)
    {amount coefficient : α} (hreal : Quantity.real? amount = .ok coefficient) :
    ofLog (log ++ [(.addCoefficient (.ofConstraint row rowName) (.ofVariable column columnName) amount,
        .ok .done)]) =
      { ofLog log with
        amounts := fun place other => (ofLog log).amounts place other ++
          if Model.isPlace place other row column then [coefficient] else [] } := by
  simp only [ofLog_concat, addedVariable?, addedConstraint?, flagAt?, amountsAt, constraintIndex?,
    variableIndex?, standsAt, Option.any_some, Option.toList_none, List.append_nil, hreal,
    Except.toOption, Option.toList_some, Model.isPlace]
  rfl

end History

end Problem

end PatternCovering
