import PatternCovering.Proofs.Problem.Calls
import PatternCovering.Recorder

/-!
# The values that stand

The status of a problem is kept by each of its operations on its own: a solve sets it, and so does
every change of the model. What it comes to can be read off the calls that were accepted: values are
given exactly while the latest solve or change is a solve to the optimum. Otherwise a reading is
refused with the status of the latest solve, or as not solved if something has changed since. Nothing
else that is called makes a difference, and nothing that is refused.
-/

namespace PatternCovering

namespace Problem

/-- An accepted call that decides whether values stand. -/
inductive Landmark where
  | changed
  | solved (status : Status)
  deriving DecidableEq

/-- The status of a problem after a landmark. -/
def Landmark.status : Landmark → Status
  | .changed => .notSolved
  | .solved status => status

variable {ε α : Type}

/-- What a call with its outcome says about the values: a solve and every change of the model do so
when they are accepted. -/
def landmark? : Call α × Except Fault (Answer α) → Option Landmark
  | (.solve, .ok (.status status)) => some (.solved status)
  | (.addVariable _, .ok _) => some .changed
  | (.addConstraint _ _ _, .ok _) => some .changed
  | (.addCoefficient _ _ _, .ok _) => some .changed
  | (.setInteger _ _, .ok _) => some .changed
  | _ => none

/-- The latest landmark of a log. -/
def latest (log : Log α) : Option Landmark := (log.filterMap landmark?).getLast?

/-- The status that a log leads to. -/
def standing (log : Log α) : Status := ((latest log).map Landmark.status).getD .notSolved

/-- A further call is the latest landmark if it is one. -/
theorem latest_append (log : Log α) (entry : Call α × Except Fault (Answer α)) :
    latest (log ++ [entry]) = (landmark? entry).or (latest log) := by
  rw [latest, List.filterMap_append, List.getLast?_append]
  cases hentry : landmark? entry with
  | none => simp [hentry, latest]
  | some landmark => simp [hentry]

/-- The index that a handle carries. -/
def indexOf : Reference → Datum
  | .ofVariable index _ => index
  | .ofConstraint index _ => index
  | .ofData _ => .null

/-- What the engine answers to a reading. -/
def Query.answer (engine : Engine ε α) (state : ε) : Query → Except Fault (Option α)
  | .objective => engine.objective state
  | .dual given => (engine.dual state (indexOf given)).map some
  | .primal given => (engine.primal state (indexOf given)).map some

/-- Whether the handle of a reading is one of the problem. -/
def Query.IsValid (problem : Problem ε) : Query → Prop
  | .objective => True
  | .dual given => IsConstraint problem.constraints.length given
  | .primal given => IsVariable problem.vars.length given

/-- Whether a call is a solve or a change of the model. -/
def Call.decides : Call α → Bool
  | .addVariable _ | .addConstraint _ _ _ | .addCoefficient _ _ _ | .setInteger _ _ | .solve => true
  | _ => false

/-- A call that is refused, and one that is neither a solve nor a change, is no landmark. -/
theorem landmark?_eq_none {call : Call α} {outcome : Except Fault (Answer α)}
    (h : call.decides = false ∨ ∃ fault, outcome = .error fault) :
    landmark? (call, outcome) = none := by
  rcases h with hcall | ⟨fault, rfl⟩
  · cases call <;> first | rfl | cases hcall
  · cases call <;> rfl

/-- A log leads to an optimal problem exactly if its latest landmark is a solve to the optimum. -/
theorem standing_eq_optimal {log : Log α} :
    standing log = .optimal ↔ latest log = some (.solved .optimal) := by
  rw [standing]
  rcases latest log with - | - | status
  · exact iff_of_false nofun nofun
  · exact iff_of_false nofun nofun
  · simp [Landmark.status]

/-- A reading with a handle of the problem gives what the engine answers if the status is optimal, and
is refused with the status otherwise. -/
theorem Query.ask_eq {engine : Engine ε α} {problem : Problem ε} {query : Query} (h : query.IsValid problem) :
    query.ask engine problem =
      if problem.status = .optimal then query.answer engine problem.engine
      else .error (.noSolution problem.status) := by
  cases query with
  | objective =>
    rw [Query.ask, Problem.objective, requireSolution]
    split <;> rfl
  | dual given =>
    obtain ⟨index, name, rfl, hindex⟩ := h
    rw [Query.ask, Problem.dual, checkConstraint_eq_ok_iff.mpr ⟨name, rfl, hindex⟩, requireSolution]
    split <;> rfl
  | primal given =>
    obtain ⟨index, name, rfl, hindex⟩ := h
    rw [Query.ask, Problem.primal, checkVariable_eq_ok_iff.mpr ⟨name, rfl, hindex⟩, requireSolution]
    split <;> rfl

variable [Quantity α]

/-- A call sets the status if it is a landmark, and keeps it otherwise. -/
theorem status_perform (engine : Engine ε α) (problem : Problem ε) (call : Call α) :
    (call.perform engine problem).1.status =
      ((landmark? (call, (call.perform engine problem).2)).map Landmark.status).getD
        problem.status := by
  have hcomes := comes_perform engine problem call
  generalize call.perform engine problem = result at hcomes
  cases hcomes with
  | refused hrefused =>
    rw [landmark?_eq_none (Or.inr ⟨_, rfl⟩)]
    cases hrefused <;> rfl
  | accepted haccepted => cases haccepted <;> rfl

/-- The status of a problem is the one that its log leads to. -/
theorem status_performAll (engine : Engine ε α) (start : Problem ε)
    (hstart : start.status = .notSolved) (calls : List (Call α)) :
    (performAll engine start calls).1.status = standing (performAll engine start calls).2 := by
  refine performAll_keeps (P := fun problem log => problem.status = standing log) hstart ?_ calls
  intro problem log call ih
  rw [status_perform, standing, latest_append, ih, standing]
  cases landmark? (call, (call.perform engine problem).2) <;> rfl

/-- Whether readings of a problem come to what its log says. -/
structure GivesWhatStands (engine : Engine ε α) (problem : Problem ε) (log : Log α) : Prop where
  /-- Where the engine has an answer, a reading gives a value exactly if the latest solve or change was
  a solve to the optimum. -/
  exists_value_iff : ∀ query : Query, query.IsValid problem →
    (∃ value, query.answer engine problem.engine = .ok value) →
      ((∃ value, query.ask engine problem = .ok value) ↔ latest log = some (.solved .optimal))
  /-- The value is the one that the engine has. -/
  of_optimal : latest log = some (.solved .optimal) → ∀ query : Query, query.IsValid problem →
    query.ask engine problem = query.answer engine problem.engine
  /-- Otherwise a reading is refused with the status that the log leads to. -/
  of_not_optimal : latest log ≠ some (.solved .optimal) → ∀ query : Query, query.IsValid problem →
    ∃ fault, query.ask engine problem = .error fault ∧ fault.kind = .unsolved (standing log)
  /-- No other call changes this, and none that is refused. -/
  keeps : ∀ call : Call α,
    (call.decides = false ∨ ∃ fault, (call.perform engine problem).2 = .error fault) →
      (call.perform engine problem).1.status = problem.status ∧
      latest (log ++ [(call, (call.perform engine problem).2)]) = latest log

/-- Whatever calls are made on a new problem, accepted or refused, and whatever its engine does:
values are given exactly while the latest accepted solve or change is a solve to the optimum. Otherwise
a reading is refused with the status of the latest solve, if nothing has changed since, and as not
solved if something has. -/
theorem givesWhatStands_performAll (engine : Engine ε α) (state : ε) (listener : Listener)
    (calls : List (Call α)) :
    GivesWhatStands engine (performAll engine { engine := state, listener } calls).1
      (performAll engine { engine := state, listener } calls).2 := by
  have hstatus := status_performAll engine { engine := state, listener } rfl calls
  generalize performAll engine { engine := state, listener } calls = run at hstatus
  obtain ⟨problem, log⟩ := run
  have hoptimal : problem.status = .optimal ↔ latest log = some (.solved .optimal) := by
    rw [hstatus]
    exact standing_eq_optimal
  refine ⟨fun query hvalid hanswer => ?_, fun hfresh query hvalid => ?_, fun hstale query hvalid => ?_,
    fun call hcall => ?_⟩
  · rw [Query.ask_eq hvalid, ← hoptimal]
    split
    · next hfresh => exact iff_of_true hanswer hfresh
    · next hstale => exact iff_of_false nofun hstale
  · rw [Query.ask_eq hvalid, if_pos (hoptimal.mpr hfresh)]
  · exact ⟨_, (Query.ask_eq hvalid).trans (if_neg (mt hoptimal.mp hstale)), congrArg _ hstatus⟩
  · have hnone := landmark?_eq_none hcall
    exact ⟨by rw [status_perform, hnone]; rfl, by rw [latest_append, hnone]; rfl⟩

/-- A recorder that has an objective for every solve. -/
def recorder : Recorder Rat where
  script := [{ status := .optimal, objective := .ok (some 7), dual := fun _ => .ok 0 }]
  primal := usualValue

/-- The objective is asked for before a solve, after it, after a call on an unknown variable, and after
the variable has been made an integer. -/
def recordedCalls : List (Call Rat) :=
  [.create (.text "one") .minimize, .addVariable ⟨.text "x", some 0, none, 1, .flag false⟩,
    .ask .objective, .solve, .ask .objective, .setInteger (.ofVariable (.int 1) .null) (.flag true),
    .ask .objective, .setInteger (.ofVariable (.int 0) .null) (.flag true), .ask .objective]

/-- The objective is refused before the solve and given after it, also once a call on an unknown
variable was refused. It is refused again when the variable has been made an integer. -/
theorem givesWhatStands_recordedCalls :
    ∃ problem log, performAll Recorder.engine { engine := recorder } recordedCalls = (problem, log) ∧
      log.map (fun entry => entry.2.isOk) =
        [true, true, false, true, true, false, true, true, false] ∧
      latest (log.take 7) = some (.solved .optimal) ∧ latest log = some .changed ∧
      GivesWhatStands Recorder.engine problem log :=
  ⟨_, _, rfl, by decide +kernel, by decide +kernel, by decide +kernel,
    givesWhatStands_performAll Recorder.engine recorder _ recordedCalls⟩

end Problem

end PatternCovering
