import PatternCovering.Proofs.Generation.Rounds

/-!
# The points of a run

A run is a chain of rounds that go on, followed by one that ends it or spends the budget. What a
round does to the cover is one relaxation, then at most one column; the events it tells of change
nothing but the journal. A property of every point of a run is shown round by round, and what a run
reports is what its last round left. A round may fail at each of its steps; the points of a run
include those at which it then stands.
-/

namespace PatternCovering

variable {ε σ : Type}

/-- The states of a run before each of its rounds. -/
inductive Generation.Reaches {σ : Type} (generation : Generation ε σ Rat)
    (first : Generation.Progress ε σ Rat) : Generation.Progress ε σ Rat → Prop
  | refl : Reaches generation first first
  | round {progress after : Generation.Progress ε σ Rat} (h : Reaches generation first progress)
    (hround : generation.round progress = (after, .ok none)) : Reaches generation first after

namespace Generation

variable {generation : Generation ε σ Rat} {first progress ended : Progress ε σ Rat}

/-- A run of at least one round ends with a round; if that one would go on, the budget is spent, which
is only noted. -/
theorem exists_last_of_loop {rounds : Nat} {status : GenerationStatus} (hrounds : 1 ≤ rounds)
    (hreaches : generation.Reaches first progress)
    (h : generation.loop rounds progress = (ended, .ok status)) :
    ∃ last after result cover, generation.Reaches first last ∧
      generation.round last = (after, .ok result) ∧ after.cover.Noted cover ∧
      ended = { after with cover } := by
  induction rounds generalizing progress with
  | zero => omega
  | succ rounds ih =>
    rw [loop] at h
    split at h
    · cases h
    · next after result hround =>
      obtain ⟨rfl, -⟩ := Prod.mk.inj h
      exact ⟨progress, after, some result, after.cover, hreaches, hround, .refl _, rfl⟩
    · next after hround =>
      rcases Nat.eq_zero_or_pos rounds with rfl | hmore
      · rw [loop] at h
        obtain ⟨-, cover, hnoted, rfl⟩ := of_close h
        exact ⟨progress, after, none, cover, hreaches, hround, hnoted, rfl⟩
      · exact ih hmore (hreaches.round hround) h

/-- What a round that does not fail does to a run: it solves the relaxation, adds at most one column,
which the oracle offered, and enters the objective of the relaxation into the history. -/
theorem parts_of_round {after : Progress ε σ Rat} {result : Option GenerationStatus}
    (h : generation.round progress = (after, .ok result)) :
    ∃ relaxed solution asked grown done,
      progress.cover.solveRelaxation generation.engine generation.feasibility =
        (relaxed, .ok solution) ∧
      relaxed.Noted asked ∧
      (grown = asked ∨ ∃ offer stored,
        (generation.oracle.price progress.oracle solution.duals).2.2 = .ok offer ∧
        asked.addColumn generation.engine offer.column .null = (grown, .ok stored)) ∧
      grown.Noted after.cover ∧ done.objective = solution.objective ∧
      after.history = progress.history ++ [done] ∧ after.solution = some solution := by
  obtain ⟨advanced, solution, offer, added, cover, done, hadvance, rfl, -, hnoted, rfl⟩ :=
    of_round h
  obtain ⟨relaxed, asked, oracle, events, grown, hrelaxed, hprice, hasked, haccept, rfl⟩ :=
    of_advance hadvance
  refine ⟨relaxed, solution, asked, grown, _, hrelaxed, hasked, ?_, hnoted, rfl, rfl, rfl⟩
  rcases of_accept haccept with ⟨-, -, hsame⟩ | ⟨-, -, -, stored, hadded⟩
  · exact Or.inl hsame
  · exact Or.inr ⟨offer, stored, by rw [hprice], hadded⟩

/-- A run of at least one round that returns reports what its last round left: the objective of the
last relaxation, and the columns that are used in it. -/
theorem exists_last_of_solve {cover : Cover ε Rat} {oracle : σ} {final : Progress ε σ Rat}
    {outcome : Outcome Rat} (h : generation.solve cover oracle = (final, .ok outcome))
    (hrounds : 1 ≤ generation.settings.rounds) :
    ∃ last after result relaxed solution reported,
      generation.Reaches { cover, oracle } last ∧ generation.round last = (after, .ok result) ∧
      last.cover.solveRelaxation generation.engine generation.feasibility =
        (relaxed, .ok solution) ∧
      after.cover.Noted reported ∧ outcome.objective = solution.objective ∧
      outcome.rounds = last.history.length + 1 ∧
      reported.activeColumns solution generation.feasibility = .ok outcome.columns := by
  obtain ⟨ended, status, found, hloop, hfound, ⟨_, _, rfl⟩, -⟩ := exists_loop_of_solve h
  obtain ⟨columns, hcolumns, hfound⟩ := bind_eq_ok.mp hfound
  obtain rfl := Except.ok.inj hfound
  obtain ⟨last, after, result, reported, hreaches, hround, hnoted, rfl⟩ :=
    exists_last_of_loop hrounds .refl hloop
  obtain ⟨relaxed, solution, _, _, done, hrelaxed, -, -, -, -, hhistory, hsolution⟩ :=
    parts_of_round hround
  rw [usedColumns, hsolution] at hcolumns
  refine ⟨last, after, result, relaxed, solution, reported, hreaches, hround, hrelaxed, hnoted, ?_,
    ?_, hcolumns⟩
  · exact congrArg (·.bind (·.objective)) hsolution
  · exact (congrArg List.length hhistory).trans List.length_append

/-- A run of no round has no objective. -/
theorem objective_of_no_round {cover : Cover ε Rat} {oracle : σ} {final : Progress ε σ Rat}
    {outcome : Outcome Rat} (h : generation.solve cover oracle = (final, .ok outcome))
    (hrounds : generation.settings.rounds = 0) : outcome.objective = none := by
  obtain ⟨ended, status, found, hloop, hfound, ⟨_, _, rfl⟩, -⟩ := exists_loop_of_solve h
  obtain ⟨columns, -, hfound⟩ := bind_eq_ok.mp hfound
  obtain rfl := Except.ok.inj hfound
  rw [hrounds, loop] at hloop
  obtain ⟨-, noted, -, rfl⟩ := of_close hloop
  rfl

/-- The points of a run: before each of its rounds, and in the round and after it, whether or not the
round fails. -/
inductive Passes (generation : Generation ε σ Rat) (first : Progress ε σ Rat) :
    Progress ε σ Rat → Prop
  | before {progress : Progress ε σ Rat} (h : generation.Reaches first progress) :
    Passes generation first progress
  | relaxed {progress : Progress ε σ Rat} (h : generation.Reaches first progress) :
    Passes generation first { progress with
      cover := (progress.cover.solveRelaxation generation.engine generation.feasibility).1 }
  | advanced {progress : Progress ε σ Rat} (h : generation.Reaches first progress) :
    Passes generation first (generation.advance progress).1
  | rounded {progress : Progress ε σ Rat} (h : generation.Reaches first progress) :
    Passes generation first (generation.round progress).1

/-- What a point in a round has besides the point before the round: at most one more column, which
the oracle offered, and at most one more entry in the history, with the objective of the
relaxation. -/
structure Within (generation : Generation ε σ Rat) (progress point : Progress ε σ Rat) : Prop where
  columns : point.cover.pool.columns = progress.cover.pool.columns ∨
    ∃ duals offer id, (generation.oracle.price progress.oracle duals).2.2 = .ok offer ∧
      point.cover.pool.columns = progress.cover.pool.columns ++ [{ offer.column with id }]
  history : point.history = progress.history ∨
    ∃ relaxed solution done,
      progress.cover.solveRelaxation generation.engine generation.feasibility =
        (relaxed, .ok solution) ∧
      done.objective = solution.objective ∧ point.history = progress.history ++ [done]

/-- Entries in the journal and calls of observers keep a point in its round. -/
theorem Within.noted {point : Progress ε σ Rat} (h : generation.Within progress point)
    {cover : Cover ε Rat} (hnoted : point.cover.Noted cover) (calls : List (Nat × Round Rat)) :
    generation.Within progress { point with cover, calls } :=
  ⟨by rw [hnoted.pool_eq]; exact h.columns, h.history⟩

/-- Telling of events keeps a point in its round. -/
theorem within_of_tell {point told : Progress ε σ Rat} {events : List Event}
    {outcome : Except Fault Unit} (htold : point.tell events = (told, outcome))
    (h : generation.Within progress point) : generation.Within progress told := by
  obtain ⟨noted, hnoted, rfl⟩ := of_tell htold
  exact h.noted hnoted _

/-- Closing a run keeps a point in its round. -/
theorem Within.close {point : Progress ε σ Rat} (h : generation.Within progress point)
    (event : Event) (status : GenerationStatus) :
    generation.Within progress (point.close event status).1 := by
  rcases htold : point.tell [event] with ⟨told, outcome⟩
  rw [Progress.close, htold]
  exact within_of_tell htold h

/-- The relaxation adds no column. -/
theorem within_relaxed (generation : Generation ε σ Rat) (progress : Progress ε σ Rat) (oracle : σ)
    (solution : Option (CoverSolution Rat)) :
    generation.Within progress { progress with
      cover := (progress.cover.solveRelaxation generation.engine generation.feasibility).1
      oracle, solution } := by
  obtain ⟨last, hrelaxed⟩ :=
    progress.cover.exists_solveRelaxation generation.engine generation.feasibility
  exact ⟨Or.inl (by rw [hrelaxed]), Or.inl rfl⟩

/-- However settling an offer ends, its column is the only one that may be added. -/
theorem columns_accept (generation : Generation ε σ Rat) (cover : Cover ε Rat) (offer : Offer Rat) :
    (generation.accept cover offer).1.pool.columns = cover.pool.columns ∨
      ∃ id, (generation.accept cover offer).1.pool.columns =
        cover.pool.columns ++ [{ offer.column with id }] := by
  have hadded := cover.columns_addColumn generation.engine offer.column .null
  rw [accept]
  split
  · exact Or.inl rfl
  · exact Or.inl rfl
  · split
    · next grown fault hgrown =>
      rw [hgrown] at hadded
      exact hadded
    · next grown stored hgrown =>
      rw [hgrown] at hadded
      exact hadded

/-- However the part of a round that can fail ends, its point is in the round, and the history is as
it was. -/
theorem within_advance (generation : Generation ε σ Rat) (progress : Progress ε σ Rat) :
    generation.Within progress (generation.advance progress).1 ∧
      (generation.advance progress).1.history = progress.history := by
  have hrelaxed := generation.within_relaxed progress
  simp only [advance]
  split
  · next relaxed fault hfailed =>
    rw [hfailed] at hrelaxed
    exact ⟨hrelaxed _ _, rfl⟩
  · next relaxed solution hsolved =>
    rw [hsolved] at hrelaxed
    split
    · next asked fault htold =>
      obtain ⟨noted, hnoted, rfl⟩ := of_tell htold
      exact ⟨(hrelaxed _ _).noted hnoted _, rfl⟩
    · next asked fault htold _ =>
      obtain ⟨noted, hnoted, rfl⟩ := of_tell htold
      exact ⟨(hrelaxed _ _).noted hnoted _, rfl⟩
    · next asked offer htold hpriced =>
      obtain ⟨noted, hnoted, rfl⟩ := of_tell htold
      have hsame : noted.pool.columns = progress.cover.pool.columns := by
        rw [hnoted.pool_eq, (Cover.pool_of_solveRelaxation hsolved).1]
      have haccepted := generation.columns_accept noted offer
      rw [hsame] at haccepted
      have hsettled : generation.Within progress
          { progress with cover := (generation.accept noted offer).1 } := by
        refine ⟨?_, Or.inl rfl⟩
        rcases haccepted with hnone | ⟨id, hone⟩
        · exact Or.inl hnone
        · exact Or.inr ⟨solution.duals, offer, id, hpriced, hone⟩
      split
      · next grown fault hgrown =>
        rw [hgrown] at hsettled
        exact ⟨⟨hsettled.columns, Or.inl rfl⟩, rfl⟩
      · next grown added hgrown =>
        rw [hgrown] at hsettled
        exact ⟨⟨hsettled.columns, Or.inl rfl⟩, rfl⟩

/-- What observers say keeps a point in its round. -/
theorem Within.observe {point : Progress ε σ Rat} (h : generation.Within progress point)
    (done : Round Rat) : generation.Within progress (generation.observe point done).1 := by
  have hasked := h.noted (.refl _) (point.calls ++ (consult done 0 generation.observers).1)
  simp only [Generation.observe]
  split
  · exact hasked
  · exact hasked
  · exact hasked.close _ .feasible

/-- However a round ends, its point is in the round. -/
theorem within_round (generation : Generation ε σ Rat) (progress : Progress ε σ Rat) :
    generation.Within progress (generation.round progress).1 := by
  obtain ⟨hadvanced, hhistory⟩ := generation.within_advance progress
  simp only [round]
  split
  · next advanced fault hfailed =>
    rw [hfailed] at hadvanced
    exact hadvanced
  · next advanced solution offer added hadvance =>
    rw [hadvance] at hadvanced hhistory
    obtain ⟨relaxed, _, _, _, _, hrelaxed, -⟩ := of_advance hadvance
    have hentered : ∀ done : Round Rat, done.objective = solution.objective →
        generation.Within progress { advanced with history := advanced.history ++ [done] } :=
      fun done hdone => ⟨hadvanced.columns, Or.inr ⟨relaxed, solution, done, hrelaxed, hdone,
        congrArg (· ++ [done]) hhistory⟩⟩
    split
    · next reported fault htold => exact within_of_tell htold (hentered _ rfl)
    · next reported htold =>
      have hreported := within_of_tell htold (hentered _ rfl)
      split
      · exact hreported.close _ .optimal
      · exact hreported.observe _

/-- Each point of a run is in a round. -/
theorem Passes.exists_within {point : Progress ε σ Rat} (h : generation.Passes first point) :
    ∃ progress, generation.Reaches first progress ∧ generation.Within progress point := by
  cases h with
  | before hreaches => exact ⟨point, hreaches, Or.inl rfl, Or.inl rfl⟩
  | relaxed hreaches => exact ⟨_, hreaches, within_relaxed _ _ _ _⟩
  | advanced hreaches => exact ⟨_, hreaches, (within_advance _ _).1⟩
  | rounded hreaches => exact ⟨_, hreaches, within_round _ _⟩

/-- What is true at first and is kept from the point before a round to each point in it is true at
each point of a run. -/
theorem Passes.keeps {P : Progress ε σ Rat → Prop} {point : Progress ε σ Rat} (hfirst : P first)
    (hwithin : ∀ before after, generation.Reaches first before → generation.Within before after →
      P before → P after) (h : generation.Passes first point) : P point := by
  obtain ⟨progress, hreaches, hpoint⟩ := h.exists_within
  refine hwithin _ _ hreaches hpoint ?_
  clear hpoint h
  induction hreaches with
  | refl => exact hfirst
  | @round progress after hreaches hround ih =>
    have hnext := generation.within_round progress
    rw [hround] at hnext
    exact hwithin _ _ hreaches hnext ih

/-- What is true of the first columns and of all offered ones is true of all columns at each point of
a run. -/
theorem Passes.columns {P : Column Rat → Prop} {point : Progress ε σ Rat}
    (hfirst : ∀ column ∈ first.cover.pool.columns, P column)
    (hoffer : ∀ oracle duals offer id, (generation.oracle.price oracle duals).2.2 = .ok offer →
      P { offer.column with id })
    (h : generation.Passes first point) : ∀ column ∈ point.cover.pool.columns, P column := by
  refine h.keeps (P := fun point => ∀ column ∈ point.cover.pool.columns, P column) hfirst
    fun before after _ hwithin hbefore => ?_
  rcases hwithin.columns with hsame | ⟨duals, offer, id, hprice, hmore⟩
  · rwa [hsame]
  · rw [hmore]
    exact List.forall_mem_append.mpr ⟨hbefore, List.forall_mem_singleton.mpr
      (hoffer _ _ _ _ hprice)⟩

/-- What is true of all rounds with the objective of a relaxation of a run is true of all rounds in the
history at each point. -/
theorem Passes.history {P : Round Rat → Prop} {point : Progress ε σ Rat}
    (hfirst : ∀ done ∈ first.history, P done)
    (hrelaxation : ∀ progress relaxed solution, generation.Reaches first progress →
      progress.cover.solveRelaxation generation.engine generation.feasibility =
        (relaxed, .ok solution) →
      ∀ done : Round Rat, done.objective = solution.objective → P done)
    (h : generation.Passes first point) : ∀ done ∈ point.history, P done := by
  refine h.keeps (P := fun point => ∀ done ∈ point.history, P done) hfirst
    fun before after hreaches hwithin hbefore => ?_
  rcases hwithin.history with hsame | ⟨relaxed, solution, done, hrelaxed, hdone, hmore⟩
  · rwa [hsame]
  · rw [hmore]
    exact List.forall_mem_append.mpr ⟨hbefore, List.forall_mem_singleton.mpr
      (hrelaxation _ _ _ hreaches hrelaxed _ hdone)⟩

/-- However rounds end, they leave a point of the run, but for entries in the journal. -/
theorem exists_passes_loop (hreaches : generation.Reaches first progress) (rounds : Nat) :
    ∃ point cover, generation.Passes first point ∧ point.cover.Noted cover ∧
      (generation.loop rounds progress).1 = { point with cover } := by
  induction rounds generalizing progress with
  | zero =>
    rcases htold : progress.tell [.budgetSpent (.number generation.settings.budget)] with
      ⟨told, outcome⟩
    obtain ⟨cover, hnoted, hclosed⟩ := of_tell htold
    refine ⟨progress, cover, .before hreaches, hnoted, ?_⟩
    rw [loop, Progress.close, htold]
    exact hclosed
  | succ rounds ih =>
    have hpoint := Passes.rounded hreaches
    rw [loop]
    split
    · next ended fault hround =>
      rw [hround] at hpoint
      exact ⟨ended, ended.cover, hpoint, .refl _, rfl⟩
    · next ended status hround =>
      rw [hround] at hpoint
      exact ⟨ended, ended.cover, hpoint, .refl _, rfl⟩
    · next after hround => exact ih (hreaches.round hround)

/-- However a whole run ends, it leaves the columns and the history of one of its points. -/
theorem exists_passes_solve (generation : Generation ε σ Rat) (cover : Cover ε Rat) (oracle : σ) :
    ∃ point, generation.Passes { cover, oracle } point ∧
      (generation.solve cover oracle).1.cover.pool = point.cover.pool ∧
      (generation.solve cover oracle).1.history = point.history := by
  obtain ⟨point, noted, hpoint, hnoted, hended⟩ :=
    exists_passes_loop (.refl : generation.Reaches { cover, oracle } _) generation.settings.rounds
  refine ⟨point, hpoint, ?_⟩
  have hpool : (generation.loop generation.settings.rounds { cover, oracle }).1.cover.pool =
      point.cover.pool := by rw [hended, hnoted.pool_eq]
  have hhistory : (generation.loop generation.settings.rounds { cover, oracle }).1.history =
      point.history := by rw [hended]
  simp only [solve]
  split
  · next failed fault hloop =>
    rw [hloop] at hpool hhistory
    exact ⟨hpool, hhistory⟩
  · next ended status hloop =>
    rw [hloop] at hpool hhistory
    split
    · exact ⟨hpool, hhistory⟩
    · split
      · have hrestricted := restrict_keeps generation ended
        exact ⟨(hrestricted _).1.trans hpool, (hrestricted _).2.trans hhistory⟩
      · exact ⟨hpool, hhistory⟩

end Generation

end PatternCovering
