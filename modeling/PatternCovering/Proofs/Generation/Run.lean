import PatternCovering.Generation
import PatternCovering.Proofs.Cover.Changes

/-!
# What stands behind a converged run

The rounds of a run only ever add columns to its cover, solve its relaxation and tell of events. A
run converges in one way: a round solved the relaxation, had its duals priced, and the offer did not
improve. The objective that is reported is that of the same relaxation.
-/

namespace PatternCovering

variable {ε σ α : Type}

/-- The dual of a row is that which the engine gives for it. -/
theorem Problem.of_dual {engine : Engine ε α} {problem : Problem ε} {row : Handle} {value : α}
    (h : problem.dual engine row.asConstraint = .ok value) :
    engine.dual problem.engine (.int row.index) = .ok value := by
  obtain ⟨index, hindex, h⟩ := bind_eq_ok.mp h
  obtain ⟨_, -, h⟩ := bind_eq_ok.mp h
  rwa [of_checkIndex hindex] at h

variable [Quantity α]

namespace Cover

/-- The covers that grow out of one by adding columns, solving the relaxation and telling of
events. -/
inductive GrowsTo (engine : Engine ε α) (first : Cover ε α) : Cover ε α → Prop
  | refl : GrowsTo engine first first
  | addColumn {cover : Cover ε α} (column : Column α) (name : Datum)
    (h : GrowsTo engine first cover) : GrowsTo engine first (cover.addColumn engine column name).1
  | solveRelaxation {cover : Cover ε α} (tolerance : α) (h : GrowsTo engine first cover) :
    GrowsTo engine first (cover.solveRelaxation engine tolerance).1
  | tell {cover : Cover ε α} (event : Event) (h : GrowsTo engine first cover) :
    GrowsTo engine first (cover.tell event).1

/-- Adding a column keeps the rows. -/
theorem rows_addColumn (engine : Engine ε α) (cover : Cover ε α) (column : Column α)
    (name : Datum) : (cover.addColumn engine column name).1.rows = cover.rows := by
  simp only [Cover.addColumn]
  split
  · rfl
  · split
    · rfl
    · split
      · rfl
      · simp only [store]
        split
        · rfl
        · rfl

/-- Solving the relaxation keeps the rows. -/
theorem rows_solveRelaxation (engine : Engine ε α) (cover : Cover ε α) (tolerance : α) :
    (cover.solveRelaxation engine tolerance).1.rows = cover.rows := by
  simp only [Cover.solveRelaxation]
  split
  · rfl
  · split
    · split
      · rfl
      · rfl
    · rfl

/-- A cover keeps its rows as it grows. -/
theorem GrowsTo.rows_eq {engine : Engine ε α} {first cover : Cover ε α}
    (h : GrowsTo engine first cover) : cover.rows = first.rows := by
  induction h with
  | refl => rfl
  | addColumn column name _ ih => rw [rows_addColumn, ih]
  | solveRelaxation tolerance _ ih => rw [rows_solveRelaxation, ih]
  | tell event _ ih => exact ih

/-- Whether an engine reports an objective and duals of the demand rows for the relaxation of a
cover, which it has solved to the optimum. -/
def Reports (engine : Engine ε α) (cover : Cover ε α) (objective : Option α) (duals : List α) :
    Prop :=
  ∃ state, engine.solve cover.problem.engine = (state, .ok .optimal) ∧
    engine.objective state = .ok objective ∧
    (cover.rows.mapM fun row => engine.dual state (.int row.index)) = .ok duals

/-- The objective and the duals of a solution of the relaxation are those of one solve. -/
theorem reports_of_solveRelaxation {engine : Engine ε α} {cover after : Cover ε α} {tolerance : α}
    {solution : CoverSolution α}
    (h : cover.solveRelaxation engine tolerance = (after, .ok solution)) :
    cover.Reports engine solution.objective solution.duals := by
  obtain ⟨solved, hsolve, hcollect, -⟩ := of_solveRelaxation h
  obtain ⟨plain, hplain, hcollect⟩ := bind_eq_ok.mp hcollect
  obtain ⟨duals, hduals, hsame⟩ := bind_eq_ok.mp hcollect
  obtain ⟨objective, hobjective, hplain⟩ := bind_eq_ok.mp hplain
  obtain ⟨values, -, hplain⟩ := bind_eq_ok.mp hplain
  obtain ⟨_, -, hobjective⟩ := bind_eq_ok.mp hobjective
  rw [← Except.ok.inj hsame, ← Except.ok.inj hplain]
  exact ⟨solved.engine, Problem.of_solve hsolve, hobjective,
    mapM_eq_ok_of_imp (fun row _ value hvalue => Problem.of_dual hvalue) hduals⟩

end Cover

namespace Generation

variable {generation : Generation ε σ α} {first : Cover ε α} {progress after : Progress ε σ α}

/-- What certifies a solution of the relaxation: it was found for a cover of the run, its duals were
priced, and the offer does not improve. -/
def Certificate (generation : Generation ε σ α) (first : Cover ε α) (solution : CoverSolution α) :
    Prop :=
  ∃ cover oracle offer, Cover.GrowsTo generation.engine first cover ∧
    cover.Reports generation.engine solution.objective solution.duals ∧
    (generation.oracle.price oracle solution.duals).2.2 = .ok offer ∧
    offer.isImproving generation.settings.tolerance = .ok false

/-- Telling of events keeps the solution. -/
theorem growsTo_tell {engine : Engine ε α} {events : List Event} {outcome : Except Fault Unit}
    (htell : progress.tell events = (after, outcome))
    (h : Cover.GrowsTo engine first progress.cover) :
    Cover.GrowsTo engine first after.cover ∧ after.solution = progress.solution := by
  induction events generalizing progress with
  | nil =>
    obtain ⟨rfl, -⟩ := Prod.mk.inj htell
    exact ⟨h, rfl⟩
  | cons event rest ih =>
    have htold := h.tell event
    rw [Progress.tell] at htell
    split at htell
    · next cover fault hcover =>
      rw [hcover] at htold
      obtain ⟨rfl, -⟩ := Prod.mk.inj htell
      exact ⟨htold, rfl⟩
    · next cover hcover =>
      rw [hcover] at htold
      obtain ⟨hgrows, hsolution⟩ := ih htell htold
      exact ⟨hgrows, hsolution⟩

/-- Closing a run keeps the solution, and ends the run with the given status. -/
theorem growsTo_close {engine : Engine ε α} {event : Event} {given : GenerationStatus}
    {outcome : Except Fault GenerationStatus}
    (hclose : progress.close event given = (after, outcome))
    (h : Cover.GrowsTo engine first progress.cover) :
    Cover.GrowsTo engine first after.cover ∧ after.solution = progress.solution ∧
      ∀ status, outcome = .ok status → status = given := by
  rw [Progress.close] at hclose
  rcases htell : progress.tell [event] with ⟨told, heard⟩
  rw [htell] at hclose
  obtain ⟨rfl, rfl⟩ := Prod.mk.inj hclose
  obtain ⟨hgrows, hsolution⟩ := growsTo_tell htell h
  refine ⟨hgrows, hsolution, fun status hstatus => ?_⟩
  obtain ⟨_, -, rfl⟩ := map_eq_ok.mp hstatus
  rfl

/-- What accepting an offer does: if no column is added, the offer does not improve. -/
theorem growsTo_accept {cover : Cover ε α} (offer : Offer α)
    (h : Cover.GrowsTo generation.engine first cover) :
    Cover.GrowsTo generation.engine first (generation.accept cover offer).1 ∧
      ((generation.accept cover offer).2 = .ok 0 →
        offer.isImproving generation.settings.tolerance = .ok false) := by
  rw [accept]
  split
  · exact ⟨h, fun hzero => by cases hzero⟩
  · next hdeclined =>
    refine ⟨h, fun _ => ?_⟩
    obtain ⟨improving, himproving, hdeclined⟩ := bind_eq_ok.mp hdeclined
    cases improving with
    | false => exact himproving
    | true =>
      obtain ⟨known, -, hdeclined⟩ := bind_eq_ok.mp hdeclined
      cases known <;> cases hdeclined
  · have hgrown := h.addColumn offer.column .null
    split
    · next grown fault hadded =>
      rw [hadded] at hgrown
      exact ⟨hgrown, fun hzero => by cases hzero⟩
    · next grown stored hadded =>
      rw [hadded] at hgrown
      exact ⟨hgrown, fun hzero => by simp at hzero⟩

/-- What the part of a round that can fail does: the solution it gives is kept, and it is certified
if no column is added. -/
theorem growsTo_advance {solution : CoverSolution α} {offer : Offer α} {added : Nat}
    (hadvance : generation.advance progress = (after, .ok (solution, offer, added)))
    (h : Cover.GrowsTo generation.engine first progress.cover) :
    Cover.GrowsTo generation.engine first after.cover ∧ after.solution = some solution ∧
      (added = 0 → generation.Certificate first solution) := by
  have hsolved := h.solveRelaxation generation.feasibility
  simp only [advance] at hadvance
  split at hadvance
  · cases hadvance
  · next cover found hrelaxation =>
    rw [hrelaxation] at hsolved
    split at hadvance
    · cases hadvance
    · cases hadvance
    · next asked offered htold hprice =>
      obtain ⟨hgrows, hsolution⟩ := growsTo_tell htold hsolved
      obtain ⟨hgrown, hdeclined⟩ := growsTo_accept offered hgrows
      split at hadvance
      · cases hadvance
      · next last count haccept =>
        rw [haccept] at hgrown hdeclined
        simp only [Prod.mk.injEq, Except.ok.injEq] at hadvance
        obtain ⟨rfl, rfl, rfl, rfl⟩ := hadvance
        refine ⟨hgrown, hsolution, fun hzero => ?_⟩
        rw [hzero] at hdeclined
        exact ⟨progress.cover, progress.oracle, offered, h,
          Cover.reports_of_solveRelaxation hrelaxation, hprice, hdeclined rfl⟩

/-- What observers do to a run: it goes on or ends, but not as optimal. -/
theorem growsTo_observe {done : Round α} {result : Option GenerationStatus}
    (hobserve : generation.observe progress done = (after, .ok result))
    (h : Cover.GrowsTo generation.engine first progress.cover) :
    Cover.GrowsTo generation.engine first after.cover ∧ result ≠ some .optimal := by
  rw [observe] at hobserve
  rcases hconsult : consult done 0 generation.observers with ⟨calls, continues⟩
  simp only [hconsult] at hobserve
  split at hobserve
  · cases hobserve
  · obtain ⟨rfl, hresult⟩ := Prod.mk.inj hobserve
    rw [← Except.ok.inj hresult]
    exact ⟨h, by simp⟩
  · obtain ⟨hclosed, hresult⟩ := Prod.mk.inj hobserve
    obtain ⟨hgrows, -, hended⟩ := growsTo_close (Prod.ext hclosed rfl) h
    obtain ⟨status, hstatus, rfl⟩ := map_eq_ok.mp hresult
    refine ⟨hgrows, ?_⟩
    rw [hended status hstatus]
    simp

/-- What a round does: if the run ends with it as optimal, its solution is certified. -/
theorem growsTo_round {result : Option GenerationStatus}
    (hround : generation.round progress = (after, .ok result))
    (h : Cover.GrowsTo generation.engine first progress.cover) :
    Cover.GrowsTo generation.engine first after.cover ∧ (result = some .optimal →
      ∃ solution, after.solution = some solution ∧ generation.Certificate first solution) := by
  simp only [round] at hround
  split at hround
  · cases hround
  · next advanced solution offer added hadvance =>
    obtain ⟨hgrows, hsolution, hcertified⟩ := growsTo_advance hadvance h
    split at hround
    · cases hround
    · next reported htold =>
      obtain ⟨hgrows, hkept⟩ := growsTo_tell htold hgrows
      split at hround
      · next hzero =>
        obtain ⟨hclosed, -⟩ := Prod.mk.inj hround
        obtain ⟨hgrows, hsame, -⟩ := growsTo_close (Prod.ext hclosed rfl) hgrows
        refine ⟨hgrows, fun _ => ⟨solution, ?_, hcertified hzero⟩⟩
        rw [hsame, hkept]
        exact hsolution
      · obtain ⟨hgrows, hnot⟩ := growsTo_observe hround hgrows
        exact ⟨hgrows, fun hoptimal => absurd hoptimal hnot⟩

/-- A run of rounds that ends as optimal has a certified solution. -/
theorem certificate_of_loop {rounds : Nat}
    (hloop : generation.loop rounds progress = (after, .ok .optimal))
    (h : Cover.GrowsTo generation.engine first progress.cover) :
    ∃ solution, after.solution = some solution ∧ generation.Certificate first solution := by
  induction rounds generalizing progress with
  | zero =>
    rw [loop] at hloop
    obtain ⟨-, -, hended⟩ := growsTo_close hloop h
    cases hended _ rfl
  | succ rounds ih =>
    rw [loop] at hloop
    split at hloop
    · cases hloop
    · next advanced status hround =>
      obtain ⟨rfl, hstatus⟩ := Prod.mk.inj hloop
      exact (growsTo_round hround h).2 (congrArg some (Except.ok.inj hstatus))
    · next advanced hround => exact ih hloop (growsTo_round hround h).1

/-- The integer restriction changes neither the objective of a result nor whether it converged. -/
theorem of_restrict {outcome restricted : Outcome α}
    (h : generation.restrict progress outcome = (after, .ok restricted)) :
    restricted.objective = outcome.objective ∧ restricted.converged = outcome.converged := by
  simp only [restrict] at h
  split at h
  · cases h
  · split at h
    · cases h
    · obtain ⟨-, hheard⟩ := Prod.mk.inj h
      obtain ⟨_, -, rfl⟩ := map_eq_ok.mp hheard
      exact ⟨rfl, rfl⟩

/-- The objective of a run that converged is that of a certified solution. -/
theorem certificate_of_solve {cover : Cover ε α} {oracle : σ} {outcome : Outcome α}
    (h : generation.solve cover oracle = (after, .ok outcome))
    (hconverged : outcome.converged = true) :
    ∃ solution, outcome.objective = solution.objective ∧ generation.Certificate cover solution := by
  simp only [solve] at h
  split at h
  · cases h
  · next ended status hloop =>
    split at h
    · cases h
    · next found hfound =>
      obtain ⟨used, -, hfound⟩ := bind_eq_ok.mp hfound
      have hsame : outcome.objective = found.objective ∧ outcome.converged = found.converged := by
        split at h
        · exact of_restrict h
        · obtain ⟨-, hsame⟩ := Prod.mk.inj h
          rw [Except.ok.inj hsame]
          exact ⟨rfl, rfl⟩
      rw [← Except.ok.inj hfound] at hsame
      obtain ⟨hobjective, hstatus⟩ := hsame
      rw [hconverged] at hstatus
      obtain rfl : status = .optimal := by simpa using hstatus.symm
      obtain ⟨solution, hsolution, hcertified⟩ := certificate_of_loop hloop Cover.GrowsTo.refl
      refine ⟨solution, ?_, hcertified⟩
      rw [hobjective, hsolution]
      rfl

end Generation

end PatternCovering
