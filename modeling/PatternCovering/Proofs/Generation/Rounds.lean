import PatternCovering.Generation
import PatternCovering.Proofs.Cover.Changes

/-!
# What a round does

A round that does not fail solves the relaxation once, has its duals priced once, settles the offer
and enters itself into the history; only then are observers asked. Each part of a round has one lemma
that says all that it can do. Nothing is assumed of quantities, so that all of it holds with rounding
and not-a-number as well.
-/

namespace PatternCovering

variable {ε σ α : Type}

/-- What can be read off the states of an engine as the number of its solves: each solve that gives
a status adds one, variables and coefficients add none. -/
structure Engine.Tallies (engine : Engine ε α) (tally : ε → Nat) : Prop where
  solve : ∀ state after status, engine.solve state = (after, .ok status) →
    tally after = tally state + 1
  addVariable : ∀ state added after, engine.addVariable state added = .ok after →
    tally after = tally state
  addCoefficient : ∀ state row column amount,
    tally (engine.addCoefficient state row column amount).1 = tally state

/-- What can be read off the states of an oracle as the duals that it priced, in order. -/
def Oracle.Remembers (oracle : Oracle σ α) (heard : σ → List (List α)) : Prop :=
  ∀ state duals after events offer, oracle.price state duals = (after, events, .ok offer) →
    heard after = heard state ++ [duals]

/-- More patience with an infinite budget allows no fewer rounds. -/
theorem GenerationSettings.rounds_le_of_patience (settings : GenerationSettings α) {patience : Nat}
    (h : settings.patience ≤ patience) : settings.rounds ≤ { settings with patience }.rounds := by
  simp only [rounds]
  split
  · exact Nat.le_refl _
  · split
    · exact h
    · exact Nat.le_refl _

namespace Generation

variable {generation : Generation ε σ α} {progress after : Progress ε σ α}

/-- Telling of events changes nothing but the journal. -/
theorem of_tell {events : List Event} {outcome : Except Fault Unit}
    (h : progress.tell events = (after, outcome)) :
    ∃ cover, progress.cover.Noted cover ∧ after = { progress with cover } := by
  induction events generalizing progress with
  | nil =>
    obtain ⟨rfl, -⟩ := Prod.mk.inj h
    exact ⟨progress.cover, .refl _, rfl⟩
  | cons event rest ih =>
    have hnoted := progress.cover.noted_tell event
    rw [Progress.tell] at h
    split at h
    · next cover fault htold =>
      rw [htold] at hnoted
      obtain ⟨rfl, -⟩ := Prod.mk.inj h
      exact ⟨cover, hnoted, rfl⟩
    · next cover htold =>
      rw [htold] at hnoted
      obtain ⟨last, hlast, rfl⟩ := ih h
      exact ⟨last, hnoted.trans hlast, rfl⟩

/-- Closing a run changes nothing but the journal, and ends the run with the given status. -/
theorem of_close {event : Event} {given status : GenerationStatus}
    (h : progress.close event given = (after, .ok status)) :
    status = given ∧ ∃ cover, progress.cover.Noted cover ∧ after = { progress with cover } := by
  rw [Progress.close] at h
  rcases htell : progress.tell [event] with ⟨told, heard⟩
  rw [htell] at h
  obtain ⟨rfl, hstatus⟩ := Prod.mk.inj h
  obtain ⟨_, -, rfl⟩ := map_eq_ok.mp hstatus
  exact ⟨rfl, of_tell htell⟩

/-- The observers who are asked about a round hear of this round only. -/
theorem eq_of_mem_consult {done : Round α} {position : Nat} {observers : List (Observer α)}
    {call : Nat × Round α} (h : call ∈ (consult done position observers).1) : call.2 = done := by
  induction observers generalizing position with
  | nil => simp [consult] at h
  | cons observer rest ih =>
    rw [consult] at h
    split at h
    · rcases List.mem_cons.mp h with rfl | h
      · rfl
      · exact ih h
    · rw [List.mem_singleton.mp h]

/-- Observers let a run go on exactly if all of them say so. -/
theorem consult_eq_true {done : Round α} {position : Nat} {observers : List (Observer α)} :
    (consult done position observers).2 = .ok true ↔
      ∀ observer ∈ observers, observer done = .ok true := by
  induction observers generalizing position with
  | nil => simp [consult]
  | cons observer rest ih =>
    rw [consult]
    split
    · next htrue => simpa [htrue] using ih
    · next hnot =>
      exact ⟨fun h => absurd h hnot, fun h => absurd (h observer List.mem_cons_self) hnot⟩

/-- Where observers do not let a run go on, one of them gave the answer: it ends the run, or it
failed. -/
theorem exists_of_consult {done : Round α} {position : Nat} {observers : List (Observer α)}
    {answer : Except Fault Bool} (h : (consult done position observers).2 = answer)
    (hanswer : answer ≠ .ok true) : ∃ observer ∈ observers, observer done = answer := by
  induction observers generalizing position with
  | nil => exact absurd h.symm hanswer
  | cons observer rest ih =>
    rw [consult] at h
    split at h
    · obtain ⟨other, hother, hsaid⟩ := ih h
      exact ⟨other, List.mem_cons_of_mem _ hother, hsaid⟩
    · exact ⟨observer, List.mem_cons_self, h⟩

/-- What observers do to a run: it goes on if all of them say so, and else ends as feasible. -/
theorem of_observe {done : Round α} {result : Option GenerationStatus}
    (h : generation.observe progress done = (after, .ok result)) :
    ∃ cover continues, (consult done 0 generation.observers).2 = .ok continues ∧
      result = (if continues then none else some .feasible) ∧ progress.cover.Noted cover ∧
      after = { progress with
        cover, calls := progress.calls ++ (consult done 0 generation.observers).1 } := by
  rw [observe] at h
  rcases hconsult : consult done 0 generation.observers with ⟨calls, continues⟩
  simp only [hconsult] at h
  split at h
  · cases h
  · obtain ⟨rfl, hresult⟩ := Prod.mk.inj h
    exact ⟨progress.cover, true, rfl, (Except.ok.inj hresult).symm, .refl _, rfl⟩
  · obtain ⟨hclosed, hresult⟩ := Prod.mk.inj h
    obtain ⟨status, hstatus, rfl⟩ := map_eq_ok.mp hresult
    obtain ⟨rfl, cover, hnoted, rfl⟩ := of_close (Prod.ext hclosed hstatus)
    exact ⟨cover, false, rfl, rfl, hnoted, rfl⟩

end Generation

variable [Quantity α]

namespace Engine.Tallies

variable {engine : Engine ε α} {tally : ε → Nat}

/-- Writing coefficients solves nothing. -/
theorem writeCounts (h : engine.Tallies tally) (handle : Handle) (pairs : List (Nat × Handle))
    (problem : Problem ε) :
    tally (Cover.writeCounts engine handle pairs problem).1.engine = tally problem.engine := by
  induction pairs generalizing problem with
  | nil => rfl
  | cons pair rest ih =>
    obtain ⟨count, row⟩ := pair
    rw [Cover.writeCounts]
    split
    · exact ih problem
    · rcases problem.addCoefficient_cases engine row handle (Quantity.ofInt count) with
        ⟨fault, hrefused⟩ | ⟨coefficient, state, outcome, -, hasked, hanswered⟩
      · rw [hrefused]
      · have hsame := h.addCoefficient problem.engine (.int row.index) (.int handle.index) coefficient
        rw [hasked] at hsame
        rw [hanswered]
        cases outcome with
        | error fault => exact hsame
        | ok done => exact (ih _).trans hsame

/-- Adding a column solves nothing. -/
theorem addColumn (h : engine.Tallies tally) (cover : Cover ε α) (column : Column α)
    (name : Datum) :
    tally (cover.addColumn engine column name).1.problem.engine = tally cover.problem.engine := by
  rcases cover.addColumn_cases engine column name with
    ⟨fault, hrefused⟩ | ⟨title, extended, handle, written, -, hadded, hcases⟩
  · rw [hrefused]
  · obtain ⟨-, state, hstate, rfl⟩ := Problem.of_addVariable hadded
    have hwritten := h.writeCounts handle (column.counts.zip cover.rows)
      { cover.problem with
        engine := state, vars := cover.problem.vars ++ [handle], status := .notSolved }
    have hsame := hwritten.trans (h.addVariable _ _ _ hstate)
    rcases hcases with ⟨fault, hfailed, hfinal⟩ | ⟨hdone, hfinal⟩
    · rw [hfailed] at hsame
      rw [hfinal]
      exact hsame
    · rw [hdone] at hsame
      rw [hfinal, Cover.store]
      split
      · exact hsame
      · rw [(Cover.noted_tell _ _).engine_eq]
        exact hsame

/-- A solution of the relaxation comes from one solve. -/
theorem solveRelaxation (h : engine.Tallies tally) {cover after : Cover ε α} {tolerance : α}
    {solution : CoverSolution α}
    (hsolve : cover.solveRelaxation engine tolerance = (after, .ok solution)) :
    tally after.problem.engine = tally cover.problem.engine + 1 := by
  obtain ⟨solved, hsolved, -, rfl⟩ := Cover.of_solveRelaxation hsolve
  exact h.solve _ _ _ (Problem.of_solve hsolved)

end Engine.Tallies

namespace Generation

variable {generation : Generation ε σ α} {progress after : Progress ε σ α}

/-- An offer is accepted if it improves, and its column is new then. -/
theorem of_isAccepted {cover : Cover ε α} {offer : Offer α} {answer : Bool}
    (h : generation.isAccepted cover offer = .ok answer) :
    offer.isImproving generation.settings.tolerance = .ok answer ∧
      (answer = true → cover.hasColumn offer.column = .ok false) := by
  obtain ⟨improving, himproving, h⟩ := bind_eq_ok.mp h
  cases improving with
  | false =>
    obtain rfl := Except.ok.inj h
    exact ⟨himproving, fun hfalse => by cases hfalse⟩
  | true =>
    obtain ⟨known, hknown, h⟩ := bind_eq_ok.mp h
    cases known with
    | true => cases h
    | false =>
      obtain rfl := Except.ok.inj h
      exact ⟨himproving, fun _ => hknown⟩

/-- What becomes of an offer: it does not improve and nothing is added, or its column is new and is
added. -/
theorem of_accept {cover grown : Cover ε α} {offer : Offer α} {added : Nat}
    (h : generation.accept cover offer = (grown, .ok added)) :
    (offer.isImproving generation.settings.tolerance = .ok false ∧ added = 0 ∧ grown = cover) ∨
    (offer.isImproving generation.settings.tolerance = .ok true ∧ added = 1 ∧
      cover.hasColumn offer.column = .ok false ∧ ∃ stored,
        cover.addColumn generation.engine offer.column .null = (grown, .ok stored)) := by
  rw [accept] at h
  split at h
  · cases h
  · next hdeclined =>
    obtain ⟨rfl, hadded⟩ := Prod.mk.inj h
    exact Or.inl ⟨(of_isAccepted hdeclined).1, (Except.ok.inj hadded).symm, rfl⟩
  · next haccepted =>
    split at h
    · cases h
    · next final stored hstored =>
      obtain ⟨rfl, hadded⟩ := Prod.mk.inj h
      obtain ⟨himproving, hnew⟩ := of_isAccepted haccepted
      exact Or.inr ⟨himproving, (Except.ok.inj hadded).symm, hnew rfl, stored, hstored⟩

/-- What the part of a round that can fail does: it solves the relaxation, has its duals priced and
settles the offer. -/
theorem of_advance {solution : CoverSolution α} {offer : Offer α} {added : Nat}
    (h : generation.advance progress = (after, .ok (solution, offer, added))) :
    ∃ relaxed asked oracle events cover,
      progress.cover.solveRelaxation generation.engine generation.feasibility =
        (relaxed, .ok solution) ∧
      generation.oracle.price progress.oracle solution.duals = (oracle, events, .ok offer) ∧
      relaxed.Noted asked ∧ generation.accept asked offer = (cover, .ok added) ∧
      after = { progress with cover, oracle, solution := some solution } := by
  simp only [advance] at h
  split at h
  · cases h
  · next relaxed found hrelaxation =>
    rcases hprice : generation.oracle.price progress.oracle found.duals with
      ⟨oracle, events, priced⟩
    simp only [hprice] at h
    split at h
    · cases h
    · cases h
    · next _ asked offered htold =>
      split at h
      · cases h
      · next cover count haccept =>
        simp only [Prod.mk.injEq, Except.ok.injEq] at h
        obtain ⟨rfl, rfl, rfl, rfl⟩ := h
        obtain ⟨noted, hnoted, rfl⟩ := of_tell htold
        exact ⟨relaxed, noted, oracle, events, cover, hrelaxation, hprice, hnoted, haccept, rfl⟩

/-- How a round ends a run, if it does: as optimal if its offer does not improve, else as feasible if
an observer says so. -/
def Concludes (generation : Generation ε σ α) (offer : Offer α) (done : Round α) :
    Option GenerationStatus → Prop
  | some .optimal => offer.isImproving generation.settings.tolerance = .ok false
  | some .feasible => offer.isImproving generation.settings.tolerance = .ok true ∧
      (consult done 0 generation.observers).2 = .ok false
  | none => offer.isImproving generation.settings.tolerance = .ok true ∧
      (consult done 0 generation.observers).2 = .ok true
  | some _ => False

/-- What a round does besides advancing: it is entered into the history, and the observers are asked
if a column was added. -/
theorem of_round {result : Option GenerationStatus}
    (h : generation.round progress = (after, .ok result)) :
    ∃ advanced solution offer added cover done,
      generation.advance progress = (advanced, .ok (solution, offer, added)) ∧
      done = ⟨progress.history.length + 1, solution.objective, offer.reducedCost, added,
        advanced.cover.numColumns⟩ ∧
      generation.Concludes offer done result ∧ advanced.cover.Noted cover ∧
      after = { advanced with
        cover
        history := advanced.history ++ [done]
        calls := advanced.calls ++
          if added = 0 then [] else (consult done 0 generation.observers).1 } := by
  simp only [round] at h
  split at h
  · cases h
  · next advanced solution offer added hadvance =>
    obtain ⟨relaxed, asked, oracle, events, cover, -, -, -, haccept, hadvanced⟩ :=
      of_advance hadvance
    have hlength : advanced.history.length = progress.history.length := by rw [hadvanced]
    rw [hlength] at h
    split at h
    · cases h
    · next reported htold =>
      obtain ⟨told, hnoted, rfl⟩ := of_tell htold
      refine ⟨advanced, solution, offer, added, ?_⟩
      rcases of_accept haccept with ⟨hdeclined, rfl, -⟩ | ⟨himproving, rfl, -⟩
      · rw [if_pos rfl] at h
        obtain ⟨hclosed, hresult⟩ := Prod.mk.inj h
        obtain ⟨status, hstatus, rfl⟩ := map_eq_ok.mp hresult
        obtain ⟨rfl, closed, hfinal, rfl⟩ := of_close (Prod.ext hclosed hstatus)
        exact ⟨closed, _, hadvance, rfl, hdeclined, hnoted.trans hfinal, by simp⟩
      · rw [if_neg (by decide)] at h
        obtain ⟨final, continues, hcontinues, rfl, hfinal, rfl⟩ := of_observe h
        refine ⟨final, _, hadvance, rfl, ?_, hnoted.trans hfinal, rfl⟩
        cases continues with
        | true => exact ⟨himproving, hcontinues⟩
        | false => exact ⟨himproving, hcontinues⟩

/-- However the integer restriction ends, it keeps the columns and the history. -/
theorem restrict_keeps (generation : Generation ε σ α) (progress : Progress ε σ α)
    (outcome : Outcome α) :
    (generation.restrict progress outcome).1.cover.pool = progress.cover.pool ∧
      (generation.restrict progress outcome).1.history = progress.history := by
  have hpool : (progress.cover.solveRestriction generation.engine
      generation.feasibility).1.pool = progress.cover.pool := by
    rcases progress.cover.solveRestriction_cases generation.engine generation.feasibility with
      hsame | hsame <;> rw [hsame]
  simp only [restrict]
  split
  · next changed fault hchanged =>
    rw [hchanged] at hpool
    exact ⟨hpool, rfl⟩
  · next changed solution hchanged =>
    rw [hchanged] at hpool
    split
    · exact ⟨hpool, rfl⟩
    · rcases htold : Progress.tell { progress with cover := changed }
        [.restrictionSolved (reportOption solution.objective)] with ⟨told, heard⟩
      obtain ⟨noted, hnoted, rfl⟩ := of_tell htold
      exact ⟨hnoted.pool_eq.trans hpool, rfl⟩

/-- The integer restriction only adds its own objective and the columns in use to a result, and
changes nothing but the cover. -/
theorem exists_restrict {outcome restricted : Outcome α}
    (h : generation.restrict progress outcome = (after, .ok restricted)) :
    ∃ solved solution integerColumns,
      progress.cover.solveRestriction generation.engine generation.feasibility =
        (solved, .ok solution) ∧
      solved.activeColumns solution generation.feasibility = .ok integerColumns ∧
      restricted = { outcome with integerObjective := solution.objective, integerColumns } ∧
      ∃ cover, after = { progress with cover } := by
  simp only [restrict] at h
  split at h
  · cases h
  · next solved solution hsolved =>
    split at h
    · cases h
    · next integerColumns hcolumns =>
      obtain ⟨htold, hheard⟩ := Prod.mk.inj h
      obtain ⟨_, -, rfl⟩ := map_eq_ok.mp hheard
      obtain ⟨cover, -, rfl⟩ := of_tell (Prod.ext htold rfl)
      exact ⟨solved, solution, integerColumns, hsolved, hcolumns, rfl, cover, rfl⟩

/-- The rounds behind a run that returns: its result is theirs, but for the integer restriction. -/
theorem exists_loop_of_solve {cover : Cover ε α} {oracle : σ} {outcome : Outcome α}
    (h : generation.solve cover oracle = (after, .ok outcome)) :
    ∃ progress status found,
      generation.loop generation.settings.rounds { cover, oracle } = (progress, .ok status) ∧
      generation.outcomeOf progress status = .ok found ∧
      (∃ integerObjective integerColumns,
        outcome = { found with integerObjective, integerColumns }) ∧
      ∃ last, after = { progress with cover := last } := by
  simp only [solve] at h
  split at h
  · cases h
  · next progress status hloop =>
    split at h
    · cases h
    · next found hfound =>
      refine ⟨progress, status, found, hloop, hfound, ?_⟩
      split at h
      · obtain ⟨_, _, _, -, -, houtcome, hafter⟩ := exists_restrict h
        exact ⟨⟨_, _, houtcome⟩, hafter⟩
      · obtain ⟨rfl, hsame⟩ := Prod.mk.inj h
        obtain rfl := Except.ok.inj hsame
        exact ⟨⟨_, _, rfl⟩, _, rfl⟩

/-- Rounds that end by themselves end the same way if more of them are allowed. -/
theorem loop_of_ended {rounds more : Nat} {status : GenerationStatus}
    (h : generation.loop rounds progress = (after, .ok status)) (hended : status ≠ .iterationLimit)
    (hle : rounds ≤ more) : generation.loop more progress = (after, .ok status) := by
  induction rounds generalizing progress more with
  | zero => exact absurd (of_close h).1 hended
  | succ rounds ih =>
    obtain ⟨more, rfl⟩ : ∃ rest, more = rest + 1 := ⟨more - 1, by omega⟩
    rw [loop] at h ⊢
    split at h
    · cases h
    · exact h
    · exact ih h (Nat.le_of_succ_le_succ hle)

/-- A run with another patience for an infinite budget. -/
def withPatience (generation : Generation ε σ α) (patience : Nat) : Generation ε σ α :=
  { generation with settings := { generation.settings with patience } }

/-- The rounds themselves take no notice of the patience. -/
theorem loop_withPatience (patience rounds : Nat) (progress : Progress ε σ α) :
    (generation.withPatience patience).loop rounds progress = generation.loop rounds progress := by
  induction rounds generalizing progress with
  | zero => rfl
  | succ rounds ih =>
    have hround : (generation.withPatience patience).round progress = generation.round progress :=
      rfl
    rw [loop, loop, hround]
    split
    · rfl
    · rfl
    · exact ih _

/-- More patience makes no difference to a run that has ended by itself. So an infinite budget may be
cut anywhere behind the last round of a run. -/
theorem solve_withPatience {cover : Cover ε α} {oracle : σ} {outcome : Outcome α} {patience : Nat}
    (h : generation.solve cover oracle = (after, .ok outcome))
    (hended : outcome.status ≠ .iterationLimit) (hle : generation.settings.patience ≤ patience) :
    (generation.withPatience patience).solve cover oracle = (after, .ok outcome) := by
  obtain ⟨progress, status, found, hloop, hfound, ⟨_, _, rfl⟩, -⟩ := exists_loop_of_solve h
  have hstatus : status ≠ .iterationLimit := by
    obtain ⟨columns, -, hsame⟩ := bind_eq_ok.mp hfound
    rw [← Except.ok.inj hsame] at hended
    exact hended
  have hmore : (generation.withPatience patience).loop
      (generation.withPatience patience).settings.rounds { cover, oracle } =
        (progress, .ok status) :=
    (loop_withPatience patience _ _).trans
      (loop_of_ended hloop hstatus (generation.settings.rounds_le_of_patience hle))
  rw [solve] at h ⊢
  rw [hloop] at h
  rw [hmore]
  exact h

end Generation

end PatternCovering
