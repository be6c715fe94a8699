import PatternCovering.Proofs.Generation.Rounds
import PatternCovering.Proofs.Generation.Run
import PatternCovering.Recorder
import PatternCovering.Rehearsal

/-!
# The trace of a run

A run that returns is a sequence of turns, each of which solves the relaxation once, asks the oracle
once about its duals, and adds the column that is offered if it improves. Every turn but the last
adds its column; the history has one entry for each turn, and how the run ended can be read off the
last one.
-/

namespace PatternCovering

variable {ε σ α : Type} [Quantity α]

/-- One round of a run: the cover and the oracle at its start, the solution of the relaxation, the
offer for its duals, the columns that were added, and the cover and the oracle at its end. -/
structure Turn (ε σ α : Type) where
  before : Cover ε α
  asked : σ
  solution : CoverSolution α
  offer : Offer α
  added : List (Column α)
  after : Cover ε α
  answered : σ

namespace Turn

/-- The entry of a turn in the history, under its number. -/
def done (turn : Turn ε σ α) (number : Nat) : Round α :=
  ⟨number, turn.solution.objective, turn.offer.reducedCost, turn.added.length,
    turn.after.numColumns⟩

/-- Turns that follow one another, from a cover and an oracle to others. When the last one is over,
the journal may still be added to. -/
def Linked : Cover ε α → σ → List (Turn ε σ α) → Cover ε α → σ → Prop
  | cover, oracle, [], last, final => cover.Noted last ∧ final = oracle
  | cover, oracle, turn :: rest, last, final =>
    turn.before = cover ∧ turn.asked = oracle ∧ Linked turn.after turn.answered rest last final

end Turn

namespace Generation

variable {generation : Generation ε σ α} {progress after : Progress ε σ α}

/-- What makes a turn one round of a run: the engine solved once and reported the objective and the
duals, the oracle priced these duals, and the column it offered is added exactly if it improves. -/
structure IsTurn (generation : Generation ε σ α) (turn : Turn ε σ α) : Prop where
  reports : turn.before.Reports generation.engine turn.solution.objective turn.solution.duals
  tally_eq : ∀ tally, generation.engine.Tallies tally →
    tally turn.after.problem.engine = tally turn.before.problem.engine + 1
  price_eq : ∃ events, generation.oracle.price turn.asked turn.solution.duals =
    (turn.answered, events, .ok turn.offer)
  columns_eq : turn.after.pool.columns = turn.before.pool.columns ++ turn.added
  added_cases :
    (turn.offer.isImproving generation.settings.tolerance = .ok false ∧ turn.added = []) ∨
    (turn.offer.isImproving generation.settings.tolerance = .ok true ∧
      ∃ id, turn.added = [{ turn.offer.column with id }])

/-- The calls of observers in a turn of a given number: none if nothing was added. -/
def callsIn (generation : Generation ε σ α) (number : Nat) (turn : Turn ε σ α) :
    List (Nat × Round α) :=
  if turn.added = [] then [] else (consult (turn.done number) 0 generation.observers).1

/-- A run after one more turn. -/
def entered (generation : Generation ε σ α) (progress : Progress ε σ α) (turn : Turn ε σ α) :
    Progress ε σ α where
  cover := turn.after
  oracle := turn.answered
  history := progress.history ++ [turn.done (progress.history.length + 1)]
  calls := progress.calls ++ generation.callsIn (progress.history.length + 1) turn
  solution := some turn.solution

/-- Whether a turn is the next round of a run, which ends with it if there is a status. -/
structure Plays (generation : Generation ε σ α) (progress : Progress ε σ α) (turn : Turn ε σ α)
    (result : Option GenerationStatus) : Prop where
  isTurn : generation.IsTurn turn
  before_eq : turn.before = progress.cover
  asked_eq : turn.asked = progress.oracle
  concludes : generation.Concludes turn.offer (turn.done (progress.history.length + 1)) result

/-- A round is a turn. -/
theorem exists_turn {result : Option GenerationStatus}
    (h : generation.round progress = (after, .ok result)) :
    ∃ turn, generation.Plays progress turn result ∧ after = generation.entered progress turn := by
  obtain ⟨advanced, solution, offer, added, cover, done, hadvance, hdone, hconcludes, hnoted, rfl⟩ :=
    of_round h
  obtain ⟨relaxed, asked, oracle, events, grown, hrelaxation, hprice, hasked, haccept, rfl⟩ :=
    of_advance hadvance
  obtain ⟨last, hrelaxed⟩ :=
    progress.cover.exists_solveRelaxation generation.engine generation.feasibility
  rw [hrelaxation] at hrelaxed
  have hreports := Cover.reports_of_solveRelaxation hrelaxation
  have hcolumns : asked.pool.columns = progress.cover.pool.columns := by
    rw [hasked.pool_eq, show relaxed = _ from hrelaxed]
  have hsolves : ∀ tally, generation.engine.Tallies tally →
      tally asked.problem.engine = tally progress.cover.problem.engine + 1 := by
    intro tally htally
    rw [hasked.engine_eq]
    exact htally.solveRelaxation hrelaxation
  have hcover : cover.pool.columns = grown.pool.columns := by rw [hnoted.pool_eq]
  rcases of_accept haccept with ⟨hdeclined, rfl, rfl⟩ | ⟨himproving, rfl, -, stored, hstored⟩
  · let turn : Turn ε σ α := ⟨progress.cover, progress.oracle, solution, offer, [], cover, oracle⟩
    have hsame : turn.done (progress.history.length + 1) = done := by
      simp [hdone, turn, Turn.done, Cover.numColumns, hcover]
    refine ⟨turn, ⟨⟨hreports, ?_, ⟨events, hprice⟩, ?_, Or.inl ⟨hdeclined, rfl⟩⟩, rfl, rfl, ?_⟩, ?_⟩
    · intro tally htally
      rw [hnoted.engine_eq]
      exact hsolves tally htally
    · rw [List.append_nil]
      exact hcover.trans hcolumns
    · rw [hsame]
      exact hconcludes
    · simp [entered, callsIn, hsame, turn]
  · obtain ⟨⟨id, rfl⟩, hgrown⟩ := Cover.columns_of_addColumn hstored
    let turn : Turn ε σ α :=
      ⟨progress.cover, progress.oracle, solution, offer, [{ offer.column with id }], cover, oracle⟩
    have hsame : turn.done (progress.history.length + 1) = done := by
      simp [hdone, turn, Turn.done, Cover.numColumns, hcover]
    refine ⟨turn, ⟨⟨hreports, ?_, ⟨events, hprice⟩, ?_, Or.inr ⟨himproving, id, rfl⟩⟩, rfl, rfl, ?_⟩,
      ?_⟩
    · intro tally htally
      have hkept := htally.addColumn asked offer.column .null
      rw [hstored] at hkept
      rw [hnoted.engine_eq]
      exact hkept.trans (hsolves tally htally)
    · exact hcover.trans (hgrown.trans (by rw [hcolumns]))
    · rw [hsame]
      exact hconcludes
    · simp [entered, callsIn, hsame, turn]

/-- How the rounds of a run unfold, given the most rounds it may take: turn after turn until one ends
the run or the rounds are spent. -/
inductive Unfolds (generation : Generation ε σ α) :
    Nat → Progress ε σ α → List (Turn ε σ α) → Progress ε σ α → GenerationStatus → Prop
  | spent {progress : Progress ε σ α} {cover : Cover ε α} (h : progress.cover.Noted cover) :
    Unfolds generation 0 progress [] { progress with cover } .iterationLimit
  | last {rounds : Nat} {progress : Progress ε σ α} {turn : Turn ε σ α} {status : GenerationStatus}
    (h : generation.Plays progress turn (some status)) :
    Unfolds generation (rounds + 1) progress [turn] (generation.entered progress turn) status
  | next {rounds : Nat} {progress after : Progress ε σ α} {turn : Turn ε σ α}
    {turns : List (Turn ε σ α)} {status : GenerationStatus}
    (h : generation.Plays progress turn none)
    (hrest : Unfolds generation rounds (generation.entered progress turn) turns after status) :
    Unfolds generation (rounds + 1) progress (turn :: turns) after status

/-- A run of rounds that does not fail unfolds into turns. -/
theorem exists_unfolds {rounds : Nat} {status : GenerationStatus}
    (h : generation.loop rounds progress = (after, .ok status)) :
    ∃ turns, generation.Unfolds rounds progress turns after status := by
  induction rounds generalizing progress with
  | zero =>
    rw [loop] at h
    obtain ⟨rfl, cover, hnoted, rfl⟩ := of_close h
    exact ⟨[], .spent hnoted⟩
  | succ rounds ih =>
    rw [loop] at h
    split at h
    · cases h
    · next advanced ended hround =>
      obtain ⟨rfl, hstatus⟩ := Prod.mk.inj h
      obtain ⟨turn, hplays, rfl⟩ := exists_turn hround
      rw [← Except.ok.inj hstatus]
      exact ⟨[turn], .last hplays⟩
    · next advanced hround =>
      obtain ⟨turn, hplays, rfl⟩ := exists_turn hround
      obtain ⟨turns, hturns⟩ := ih h
      exact ⟨turn :: turns, .next hplays hturns⟩

namespace Unfolds

variable {rounds : Nat} {turns : List (Turn ε σ α)} {status : GenerationStatus}

/-- The turns of a run are rounds of it. -/
theorem isTurn (h : generation.Unfolds rounds progress turns after status) :
    ∀ turn ∈ turns, generation.IsTurn turn := by
  induction h with
  | spent => simp
  | last h => simpa using h.isTurn
  | next h _ ih => simpa using ⟨h.isTurn, ih⟩

/-- The turns of a run follow one another. -/
theorem linked (h : generation.Unfolds rounds progress turns after status) :
    Turn.Linked progress.cover progress.oracle turns after.cover after.oracle := by
  induction h with
  | spent h => exact ⟨h, rfl⟩
  | last h => exact ⟨h.before_eq, h.asked_eq, .refl _, rfl⟩
  | next h _ ih => exact ⟨h.before_eq, h.asked_eq, ih⟩

/-- A run has no more turns than rounds. -/
theorem length_le (h : generation.Unfolds rounds progress turns after status) :
    turns.length ≤ rounds := by
  induction h with
  | spent => exact Nat.le_refl 0
  | last => exact Nat.succ_le_succ (Nat.zero_le _)
  | next _ _ ih => exact Nat.succ_le_succ ih

/-- A run that may take a round has a turn. -/
theorem ne_nil (h : generation.Unfolds rounds progress turns after status) (hrounds : 0 < rounds) :
    turns ≠ [] := by
  cases h with
  | spent => cases hrounds
  | last => exact List.cons_ne_nil _ _
  | next => exact List.cons_ne_nil _ _

/-- Each turn leaves one entry in the history. -/
theorem history_eq (h : generation.Unfolds rounds progress turns after status) :
    after.history = progress.history ++
      turns.mapIdx fun j turn => turn.done (progress.history.length + (j + 1)) := by
  induction h with
  | spent => simp
  | last => simp [entered]
  | next h _ ih => simp [ih, entered, List.mapIdx_cons, Nat.add_assoc, Nat.add_comm 1]

/-- Each turn leaves the calls of its observers. -/
theorem calls_eq (h : generation.Unfolds rounds progress turns after status) :
    after.calls = progress.calls ++ (turns.mapIdx fun j turn =>
      generation.callsIn (progress.history.length + (j + 1)) turn).flatten := by
  induction h with
  | spent => simp
  | last => simp [entered]
  | next h _ ih => simp [ih, entered, List.mapIdx_cons, Nat.add_assoc, Nat.add_comm 1]

/-- Every turn before the last one had an offer that improves. -/
theorem isImproving_of_mem_dropLast (h : generation.Unfolds rounds progress turns after status) :
    ∀ turn ∈ turns.dropLast, turn.offer.isImproving generation.settings.tolerance = .ok true := by
  induction h with
  | spent => simp
  | last => simp
  | @next _ _ _ _ turns _ h _ ih =>
    intro turn hturn
    cases turns with
    | nil => simp at hturn
    | cons second rest =>
      rcases List.mem_cons.mp hturn with rfl | hturn
      · exact h.concludes.1
      · exact ih turn hturn

/-- How a run ended, by its last turn: with the status that the turn concludes with, or because the
rounds were spent on turns after which it could have gone on. -/
theorem concludes_getLast (h : generation.Unfolds rounds progress turns after status)
    {last : Turn ε σ α} (hlast : turns.getLast? = some last) :
    after.solution = some last.solution ∧
    (generation.Concludes last.offer (last.done (progress.history.length + turns.length))
        (some status) ∨
      status = .iterationLimit ∧ turns.length = rounds ∧
        generation.Concludes last.offer (last.done (progress.history.length + turns.length))
          none) := by
  induction h with
  | spent => simp at hlast
  | last h =>
    obtain rfl : _ = last := by simpa using hlast
    exact ⟨rfl, Or.inl h.concludes⟩
  | @next _ _ _ first turns _ h hrest ih =>
    cases turns with
    | nil =>
      cases hrest
      obtain rfl : first = last := by simpa using hlast
      exact ⟨rfl, Or.inr ⟨rfl, rfl, h.concludes⟩⟩
    | cons second rest =>
      obtain ⟨hsolution, hended⟩ := ih (by simpa using hlast)
      refine ⟨hsolution, ?_⟩
      simpa [entered, Nat.add_assoc, Nat.add_comm 1] using hended

end Unfolds

end Generation

namespace Turn.Linked

variable {generation : Generation ε σ α} {turns : List (Turn ε σ α)}
  {cover last : Cover ε α} {oracle final : σ}

/-- Turns that follow one another solve once each. -/
theorem tally_eq (h : Linked cover oracle turns last final)
    (hturns : ∀ turn ∈ turns, generation.IsTurn turn) {tally : ε → Nat}
    (htally : generation.engine.Tallies tally) :
    tally last.problem.engine = tally cover.problem.engine + turns.length := by
  induction turns generalizing cover oracle with
  | nil => rw [h.1.engine_eq, List.length_nil, Nat.add_zero]
  | cons turn rest ih =>
    obtain ⟨rfl, -, hrest⟩ := h
    rw [ih hrest fun other hother => hturns other (List.mem_cons_of_mem _ hother),
      (hturns turn List.mem_cons_self).tally_eq tally htally, List.length_cons]
    omega

/-- Turns that follow one another ask the oracle once each, about the duals of their solution. -/
theorem heard_eq (h : Linked cover oracle turns last final)
    (hturns : ∀ turn ∈ turns, generation.IsTurn turn) {heard : σ → List (List α)}
    (hheard : generation.oracle.Remembers heard) :
    heard final = heard oracle ++ turns.map (·.solution.duals) := by
  induction turns generalizing cover oracle with
  | nil => rw [h.2, List.map_nil, List.append_nil]
  | cons turn rest ih =>
    obtain ⟨-, rfl, hrest⟩ := h
    obtain ⟨events, hprice⟩ := (hturns turn List.mem_cons_self).price_eq
    rw [ih hrest fun other hother => hturns other (List.mem_cons_of_mem _ hother),
      hheard _ _ _ _ _ hprice, List.map_cons, List.append_assoc, List.singleton_append]

/-- The columns after a turn are those at first and the ones added up to it. -/
theorem columns_eq (h : Linked cover oracle turns last final)
    (hturns : ∀ turn ∈ turns, generation.IsTurn turn) {j : Nat} {turn : Turn ε σ α}
    (hturn : turns[j]? = some turn) :
    turn.after.pool.columns =
      cover.pool.columns ++ (turns.take (j + 1)).flatMap (·.added) := by
  induction turns generalizing cover oracle j with
  | nil => simp at hturn
  | cons first rest ih =>
    obtain ⟨rfl, -, hrest⟩ := h
    have hfirst := (hturns first List.mem_cons_self).columns_eq
    cases j with
    | zero =>
      obtain rfl : first = turn := by simpa using hturn
      simp [hfirst]
    | succ j =>
      rw [ih hrest (fun other hother => hturns other (List.mem_cons_of_mem _ hother))
        (by simpa using hturn), hfirst]
      simp

end Turn.Linked

/-- Settings with an integer budget allow as many rounds, at least one. -/
theorem GenerationSettings.of_make {budget : Int} {tolerance : α} {solveInteger verbose : Datum}
    {patience : Nat} {settings : GenerationSettings α}
    (h : make (.int budget) tolerance solveInteger verbose patience = .ok settings) :
    1 ≤ budget ∧ settings.rounds = budget.toNat ∧ settings.tolerance = tolerance ∧
      settings.solveInteger = solveInteger := by
  obtain ⟨number, hnumber, h⟩ := bind_eq_ok.mp h
  obtain ⟨_, -, h⟩ := bind_eq_ok.mp h
  obtain ⟨tooSmall, hlt, hnumber⟩ := bind_eq_ok.mp hnumber
  cases tooSmall with
  | true => cases hnumber
  | false =>
    obtain rfl : Number.int budget = number := Except.ok.inj hnumber
    obtain rfl := Except.ok.inj h
    have hle : ¬ (budget : Rat) < 1 := by
      simpa [Number.lt, Number.compareWith, Number.exactValue?] using Except.ok.inj hlt
    refine ⟨by exact_mod_cast Rat.not_lt.mp hle, ?_, rfl, rfl⟩
    simp [rounds, Number.exactValue?]

/-- A recorder counts its solves. -/
theorem Recorder.tallies : (Recorder.engine : Engine (Recorder α) α).Tallies Recorder.solves where
  solve recorder after status h := by
    change recorder.advance = _ at h
    rw [advance] at h
    split at h
    · cases h
    · obtain ⟨rfl, -⟩ := Prod.mk.inj h
      rfl
  addVariable recorder added after h := by
    obtain rfl := Except.ok.inj h
    rfl
  addCoefficient recorder row column amount := by
    simp only [engine]
    split
    · rfl
    · rfl
    · rfl

namespace Generation

variable {generation : Generation ε σ α} {progress after : Progress ε σ α}

/-- What the turns of a run are, from a cover and an oracle on: rounds that follow one another, of
which all but the last added the column that was offered. -/
structure IsTrace (generation : Generation ε σ α) (cover : Cover ε α) (oracle : σ)
    (turns : List (Turn ε σ α)) (after : Progress ε σ α) : Prop where
  isTurn : ∀ turn ∈ turns, generation.IsTurn turn
  linked : Turn.Linked cover oracle turns after.cover after.oracle
  /-- The engine solved once in each turn. -/
  tally_eq : ∀ tally, generation.engine.Tallies tally →
    tally after.cover.problem.engine = tally cover.problem.engine + turns.length
  /-- The oracle was asked once in each turn, about the duals of its solution. -/
  heard_eq : ∀ heard, generation.oracle.Remembers heard →
    heard after.oracle = heard oracle ++ turns.map (·.solution.duals)
  numColumns_eq : ∀ j turn, turns[j]? = some turn → turn.after.numColumns =
    cover.numColumns + ((turns.take (j + 1)).flatMap (·.added)).length
  added_eq : ∀ turn ∈ turns.dropLast, ∃ id, turn.added = [{ turn.offer.column with id }]

/-- The turns into which a run unfolds are a trace of it. -/
theorem Unfolds.isTrace {cover : Cover ε α} {oracle : σ} {rounds : Nat}
    {turns : List (Turn ε σ α)} {status : GenerationStatus}
    (h : generation.Unfolds rounds { cover, oracle } turns after status) :
    generation.IsTrace cover oracle turns after where
  isTurn := h.isTurn
  linked := h.linked
  tally_eq _ htally := h.linked.tally_eq h.isTurn htally
  heard_eq _ hheard := h.linked.heard_eq h.isTurn hheard
  numColumns_eq j turn hturn := by
    rw [Cover.numColumns, h.linked.columns_eq h.isTurn hturn, List.length_append]
    rfl
  added_eq turn hturn := by
    rcases (h.isTurn turn ((List.dropLast_sublist turns).subset hturn)).added_cases with
      ⟨hdeclined, -⟩ | ⟨-, hadded⟩
    · rw [h.isImproving_of_mem_dropLast turn hturn] at hdeclined
      cases hdeclined
    · exact hadded

/-- How a run ended, by its last turn: as optimal if the offer does not improve, as feasible if it
does and observers end the run, and by its budget if it could have gone on. -/
theorem Unfolds.status_cases {rounds : Nat} {turns : List (Turn ε σ α)} {status : GenerationStatus}
    (h : generation.Unfolds rounds progress turns after status) {last : Turn ε σ α}
    (hlast : turns.getLast? = some last) :
    (status = .optimal ∧ last.offer.isImproving generation.settings.tolerance = .ok false) ∨
    (status = .feasible ∧ last.offer.isImproving generation.settings.tolerance = .ok true ∧
      ∃ observer ∈ generation.observers,
        observer (last.done (progress.history.length + turns.length)) = .ok false) ∨
    (status = .iterationLimit ∧
      last.offer.isImproving generation.settings.tolerance = .ok true ∧
      (∀ observer ∈ generation.observers,
        observer (last.done (progress.history.length + turns.length)) = .ok true) ∧
      turns.length = rounds) := by
  rcases (h.concludes_getLast hlast).2 with hended | ⟨rfl, hspent, hgoes⟩
  · cases status with
    | optimal => exact Or.inl ⟨rfl, hended⟩
    | feasible =>
      exact Or.inr (Or.inl ⟨rfl, hended.1, exists_of_consult hended.2 (by simp)⟩)
    | iterationLimit => exact hended.elim
    | notSolved => exact hended.elim
  · exact Or.inr (Or.inr ⟨rfl, hgoes.1, consult_eq_true.mp hgoes.2, hspent⟩)

/-- Observers hear of a turn only if it added a column. -/
theorem Unfolds.exists_of_mem_calls {cover : Cover ε α} {oracle : σ} {rounds : Nat}
    {turns : List (Turn ε σ α)} {status : GenerationStatus}
    (h : generation.Unfolds rounds { cover, oracle } turns after status) {call : Nat × Round α}
    (hcall : call ∈ after.calls) :
    ∃ (j : Nat) (turn : Turn ε σ α), turns[j]? = some turn ∧ turn.added ≠ [] ∧ call.2 = turn.done (j + 1) := by
  rw [h.calls_eq, List.nil_append, List.mem_flatten] at hcall
  obtain ⟨calls, hcalls, hcall⟩ := hcall
  obtain ⟨j, hj, rfl⟩ := List.mem_mapIdx.mp hcalls
  rw [callsIn] at hcall
  split at hcall
  · cases hcall
  · next hadded =>
    refine ⟨j, turns[j], List.getElem?_eq_getElem hj, hadded, ?_⟩
    rw [eq_of_mem_consult hcall]
    simp

/-- If the last offer does not improve, observers only heard of the turns before it. -/
theorem Unfolds.number_lt_of_declined {cover : Cover ε α} {oracle : σ} {rounds : Nat}
    {turns : List (Turn ε σ α)} {status : GenerationStatus}
    (h : generation.Unfolds rounds { cover, oracle } turns after status) {last : Turn ε σ α}
    (hlast : turns.getLast? = some last)
    (hdeclined : last.offer.isImproving generation.settings.tolerance = .ok false)
    {call : Nat × Round α} (hcall : call ∈ after.calls) : call.2.number < turns.length := by
  obtain ⟨j, turn, hturn, hadded, hdone⟩ := h.exists_of_mem_calls hcall
  obtain ⟨hj, -⟩ := List.getElem?_eq_some_iff.mp hturn
  have hother : j + 1 ≠ turns.length := by
    intro hsame
    rw [List.getLast?_eq_getElem?, ← hsame, Nat.add_sub_cancel, hturn] at hlast
    obtain rfl := Option.some.inj hlast
    rcases (h.isTurn turn (List.mem_of_getElem? hturn)).added_cases with
      ⟨-, hnone⟩ | ⟨himproving, -⟩
    · exact hadded hnone
    · rw [hdeclined] at himproving
      cases himproving
  rw [hdone]
  exact Nat.lt_of_le_of_ne hj hother

/-- The trace law: a run without integer restriction that returns took between one turn and its
budget of turns. It reports as many rounds, with one entry of the history for each, and the objective
of the last one. It converged exactly if the last offer does not improve, and then no observer heard
of the last turn; else it ended because an observer said so, or because the budget was spent. -/
theorem trace_of_solve {cover : Cover ε α} {oracle : σ} {budget : Int} {tolerance : α}
    {solveInteger verbose : Datum} {patience : Nat} {outcome : Outcome α}
    (hsettings : GenerationSettings.make (.int budget) tolerance solveInteger verbose patience =
      .ok generation.settings)
    (hrelaxed : solveInteger.truthy = false)
    (h : generation.solve cover oracle = (after, .ok outcome)) :
    ∃ (turns : List (Turn ε σ α)) (last : Turn ε σ α),
      generation.IsTrace cover oracle turns after ∧ turns.getLast? = some last ∧
      1 ≤ turns.length ∧ (turns.length : Int) ≤ budget ∧
      outcome.rounds = turns.length ∧
      outcome.history = (turns.mapIdx fun j turn => turn.done (j + 1)) ∧
      outcome.objective = last.solution.objective ∧
      (outcome.converged = true ↔ outcome.status = .optimal) ∧
      (outcome.status = .optimal ↔ last.offer.isImproving tolerance = .ok false) ∧
      (outcome.status = .optimal → ∀ call ∈ after.calls, call.2.number < turns.length) ∧
      (outcome.status = .feasible ↔ last.offer.isImproving tolerance = .ok true ∧
        ∃ observer ∈ generation.observers, observer (last.done turns.length) = .ok false) ∧
      (outcome.status = .iterationLimit ↔ last.offer.isImproving tolerance = .ok true ∧
        (∀ observer ∈ generation.observers, observer (last.done turns.length) = .ok true) ∧
        (turns.length : Int) = budget) := by
  obtain ⟨hbudget, hrounds, rfl, rfl⟩ := GenerationSettings.of_make hsettings
  simp only [solve, hrelaxed, hrounds] at h
  split at h
  · cases h
  · next progress status hloop =>
    obtain ⟨turns, hturns⟩ := exists_unfolds hloop
    split at h
    · cases h
    · next found hfound =>
      obtain ⟨used, -, hfound⟩ := bind_eq_ok.mp hfound
      simp only [Bool.false_eq_true, if_false, Prod.mk.injEq, Except.ok.injEq] at h
      obtain ⟨rfl, rfl⟩ := h
      obtain rfl := Except.ok.inj hfound
      have hsome : turns ≠ [] := hturns.ne_nil (by omega)
      obtain ⟨last, hlast⟩ : ∃ last, turns.getLast? = some last :=
        ⟨_, List.getLast?_eq_some_getLast hsome⟩
      have hlength := hturns.length_le
      have hhistory := hturns.history_eq
      have hcases := hturns.status_cases hlast
      simp only [List.length_nil, List.nil_append, Nat.zero_add] at hhistory hcases
      refine ⟨turns, last, hturns.isTrace, hlast, List.length_pos_iff.mpr hsome, by omega,
        by simp [hhistory], hhistory, by simp [(hturns.concludes_getLast hlast).1], by simp, ?_⟩
      -- The three ways to end exclude one another, so that each of them is told by its last turn.
      rcases hcases with
        ⟨rfl, hdeclined⟩ | ⟨rfl, himproving, hstopped⟩ | ⟨rfl, himproving, hgoes, hspent⟩
      · refine ⟨by simp [hdeclined], fun _ call hcall => ?_, by simp [hdeclined],
          by simp [hdeclined]⟩
        exact hturns.number_lt_of_declined hlast hdeclined hcall
      · refine ⟨by simp [himproving], by simp, by simp [himproving, hstopped], ?_⟩
        obtain ⟨observer, hobserver, hfalse⟩ := hstopped
        simp only [reduceCtorEq, false_iff]
        rintro ⟨-, hgoes, -⟩
        rw [hgoes observer hobserver] at hfalse
        cases hfalse
      · refine ⟨by simp [himproving], by simp, ?_, ?_⟩
        · simp only [reduceCtorEq, false_iff]
          rintro ⟨-, observer, hobserver, hfalse⟩
          rw [hgoes observer hobserver] at hfalse
          cases hfalse
        · simp only [true_iff]
          exact ⟨himproving, hgoes, by omega⟩

/-- A run over one item that offers a column with two copies of it and then nothing. -/
def rehearsed : Generation (Recorder Rat) (Rehearsal.State Rat) Rat where
  engine := Recorder.engine
  oracle := Rehearsal.oracle
    (⟨1, [some (-1), none], none, PricingSettings.standard⟩ : Rehearsal Int Rat)
  settings := { budget := .int 9, tolerance := 0 }
  feasibility := 0
  observers := [fun _ => .ok true]

/-- A cover of one item over a recorder that always reports the same dual for it. -/
def recordedCover (dual : Rat) : Cover (Recorder Rat) Rat :=
  let scene : Scene Rat :=
    { status := .optimal, objective := .ok (some dual), dual := fun _ => .ok dual }
  let recorder : Recorder Rat := { script := [scene], primal := usualValue }
  (Cover.build Recorder.engine { engine := recorder } [⟨2, 1, .null, by decide⟩]
    (.text "rolls") true).1

/-- The rehearsed run takes two turns, and the engine has solved as often. -/
theorem trace_of_rehearsed :
    ∃ (after : Progress (Recorder Rat) (Rehearsal.State Rat) Rat) (outcome : Outcome Rat)
      (turns : List (Turn (Recorder Rat) (Rehearsal.State Rat) Rat))
      (last : Turn (Recorder Rat) (Rehearsal.State Rat) Rat),
      rehearsed.solve (recordedCover 1) {} = (after, .ok outcome) ∧
      rehearsed.IsTrace (recordedCover 1) {} turns after ∧ turns.getLast? = some last ∧
      turns.length = 2 ∧ after.cover.problem.engine.solves = 2 ∧ outcome.status = .optimal ∧
      last.offer.isImproving 0 = .ok false := by
  have hrun : (rehearsed.solve (recordedCover 1) {}).2.toOption.map
      (fun outcome => (outcome.rounds, outcome.status)) = some (2, .optimal) := by decide +kernel
  rcases h : rehearsed.solve (recordedCover 1) {} with ⟨after, fault | outcome⟩
  · rw [h] at hrun
    cases hrun
  · rw [h] at hrun
    simp only [Except.toOption, Option.map_some, Option.some.injEq, Prod.mk.injEq] at hrun
    obtain ⟨hrounds, hstatus⟩ := hrun
    have hsettings : GenerationSettings.make (.int 9) (0 : Rat) (.flag false) (.flag false) =
        .ok rehearsed.settings := rfl
    obtain ⟨turns, last, htrace, hlast, -, -, hlength, -, -, -, hdeclined, -⟩ :=
      trace_of_solve hsettings rfl h
    have hsolves := htrace.tally_eq _ Recorder.tallies
    have hfresh : (recordedCover 1).problem.engine.solves = 0 := by decide +kernel
    rw [← hlength, hrounds, hfresh] at hsolves
    exact ⟨after, outcome, turns, last, rfl, htrace, hlast, hlength.symm.trans hrounds,
      hsolves, hstatus, hdeclined.mp hstatus⟩

end Generation

end PatternCovering
