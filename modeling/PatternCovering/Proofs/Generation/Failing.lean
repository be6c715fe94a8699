import PatternCovering.Generation.Session
import PatternCovering.Proofs.Cover.Reached
import PatternCovering.Proofs.Generation.Trace

/-!
# What a failing run keeps

A round can fail where it solves the relaxation, where it prices the duals, where it decides on the
offer and where it adds the column. Wherever that is, the cover keeps the columns of the rounds that
were finished, in the order of the rounds, and no others; a column of the failing round is there only
if it was already added when an observer or the listener failed. The result that a session knew
before stays its latest one.

Nothing is assumed of the engine, of the oracle or of the columns that it offers. Observers are
functions of the round they are shown; rounds of a run differ in their numbers, so that an observer
who remembers earlier rounds is no more than that.
-/

namespace PatternCovering

variable {ε σ α : Type}

/-- If telling of an event fails, it is the listener who failed, and the event is left out of the
journal. -/
theorem Cover.of_tell_error {cover told : Cover ε α} {event : Event} {fault : Fault}
    (h : cover.tell event = (told, .error fault)) :
    cover.problem.listener event = .error fault ∧ told = cover := by
  simp only [tell, Problem.tell] at h
  split at h
  · next hlistener =>
    obtain ⟨rfl, hfault⟩ := Prod.mk.inj h
    obtain rfl := Except.error.inj hfault
    exact ⟨hlistener, rfl⟩
  · cases h

/-- Entries in the journal change no listener. -/
theorem Cover.Noted.listener_eq {before after : Cover ε α} (h : before.Noted after) :
    after.problem.listener = before.problem.listener := by
  obtain ⟨_, rfl⟩ := h
  rfl

variable [Quantity α]

/-- A column whose cost can be a key is taken by a pool, or it leaves the columns as they were. -/
theorem ColumnPool.columns_of_add_error {pool grown : ColumnPool α} {column : Column α}
    {fault : Fault} (hkey : Quantity.requireKey column.cost = .ok ())
    (h : pool.add column = (grown, .error fault)) : grown.columns = pool.columns := by
  have happend : ∀ known : Column α, known.cost = column.cost →
      pool.append known = (grown, .error fault) → grown.columns = pool.columns := by
    intro known hcost hknown
    rw [append, hcost, hkey] at hknown
    split at hknown
    · obtain ⟨rfl, -⟩ := Prod.mk.inj hknown
      rfl
    · cases hknown
  rw [add] at h
  split at h
  · exact happend { column with id := pool.nextId } rfl h
  · split at h
    · obtain ⟨rfl, -⟩ := Prod.mk.inj h
      rfl
    · obtain ⟨rfl, -⟩ := Prod.mk.inj h
      rfl
    · exact happend column rfl h

namespace Cover

variable {engine : Engine ε α} {cover after : Cover ε α}

/-- Storing a column that fails leaves the columns as they were, unless the column was in the pool
already and it is the listener who failed. -/
theorem columns_of_store_error {column : Column α} {handle : Handle} {fault : Fault}
    (hkey : Quantity.requireKey column.cost = .ok ())
    (h : cover.store column handle = (after, .error fault)) :
    after.pool.columns = cover.pool.columns ∨
      (∃ event, cover.problem.listener event = .error fault) ∧
        ∃ id, after.pool.columns = cover.pool.columns ++ [{ column with id }] := by
  rw [store] at h
  split at h
  · next pool _ hpool =>
    obtain ⟨rfl, hfault⟩ := Prod.mk.inj h
    exact Or.inl (ColumnPool.columns_of_add_error hkey hpool)
  · next pool stored hpool =>
    obtain ⟨⟨id, hstored⟩, hcolumns⟩ := ColumnPool.columns_of_add hpool
    rw [hstored] at hcolumns
    generalize hput : ({ cover with pool, handles := cover.handles ++ [handle] } : Cover ε α) = put
      at h
    rcases htold : put.tell (.columnAdded stored.id stored.pattern) with ⟨told, fault | done⟩
    · obtain ⟨hlistener, rfl⟩ := of_tell_error htold
      rw [htold] at h
      obtain ⟨rfl, hfault⟩ := Prod.mk.inj h
      obtain rfl := Except.error.inj hfault
      rw [← hput] at hlistener
      exact Or.inr ⟨⟨_, hlistener⟩, id, hput ▸ hcolumns⟩
    · rw [htold] at h
      cases h

/-- Adding a column that fails leaves the columns as they were, unless the column was in the pool
already and it is the listener who failed. -/
theorem columns_of_addColumn_error {column : Column α} {name : Datum} {fault : Fault}
    (h : cover.addColumn engine column name = (after, .error fault)) :
    after.pool.columns = cover.pool.columns ∨
      (∃ event, cover.problem.listener event = .error fault) ∧
        ∃ id, after.pool.columns = cover.pool.columns ++ [{ column with id }] := by
  rcases cover.addColumn_cases engine column name with
    ⟨fault, hrefused⟩ | ⟨title, extended, handle, written, hcheck, hadded,
      ⟨fault, -, hfailed⟩ | ⟨hwrites, hstored⟩⟩
  · rw [hrefused] at h
    obtain ⟨rfl, -⟩ := Prod.mk.inj h
    exact Or.inl rfl
  · rw [hfailed] at h
    obtain ⟨rfl, -⟩ := Prod.mk.inj h
    exact Or.inl rfl
  · have hkey : Quantity.requireKey ({ column with id := cover.idFor column } : Column α).cost =
        .ok () := (of_hasColumn (of_checkColumn hcheck).2.1).1
    have hkept := Problem.kept_listener engine cover.problem.listener
    have hlistener := hkept.writeCounts (hkept.addVariable rfl hadded) handle
      (column.counts.zip cover.rows)
    rw [hwrites] at hlistener
    rw [hstored] at h
    have hstore := columns_of_store_error hkey h
    rwa [hlistener] at hstore

/-- Solving the relaxation keeps the columns and the listener. -/
theorem keeps_of_solveRelaxation {tolerance : α} {outcome : Except Fault (CoverSolution α)}
    (h : cover.solveRelaxation engine tolerance = (after, outcome)) :
    after.pool = cover.pool ∧ after.problem.listener = cover.problem.listener := by
  obtain ⟨last, hsame⟩ := cover.exists_solveRelaxation engine tolerance
  rw [h] at hsame
  rw [show after = _ from hsame]
  exact ⟨rfl, (Problem.kept_listener engine cover.problem.listener).solve rfl⟩

end Cover

namespace Generation

variable {generation : Generation ε σ α} {progress after : Progress ε σ α} {fault : Fault}

/-- Whether a round comes to decide on an offer, over the cover that it then has: it has solved the
relaxation and had its duals priced, and what the oracle did was told. -/
def Asks (generation : Generation ε σ α) (progress : Progress ε σ α) (asked : Cover ε α)
    (offer : Offer α) : Prop :=
  ∃ relaxed solution oracle events,
    progress.cover.solveRelaxation generation.engine generation.feasibility =
      (relaxed, .ok solution) ∧
    generation.oracle.price progress.oracle solution.duals = (oracle, events, .ok offer) ∧
    relaxed.Noted asked

/-- How a round breaks off before its column is added. -/
inductive Breaks (generation : Generation ε σ α) (progress : Progress ε σ α) (fault : Fault) : Prop
  /-- The relaxation is not solved to the optimum, or its solution cannot be read. -/
  | relaxation
    (h : (progress.cover.solveRelaxation generation.engine generation.feasibility).2 =
      .error fault)
  /-- The oracle fails. -/
  | pricing {solution : CoverSolution α}
    (hsolved : (progress.cover.solveRelaxation generation.engine generation.feasibility).2 =
      .ok solution)
    (h : (generation.oracle.price progress.oracle solution.duals).2.2 = .error fault)
  /-- The reduced cost cannot be compared. -/
  | comparison {asked : Cover ε α} {offer : Offer α} (hasked : generation.Asks progress asked offer)
    (h : offer.isImproving generation.settings.tolerance = .error fault)
  /-- The column cannot be looked up. -/
  | lookup {asked : Cover ε α} {offer : Offer α} (hasked : generation.Asks progress asked offer)
    (himproving : offer.isImproving generation.settings.tolerance = .ok true)
    (h : asked.hasColumn offer.column = .error fault)
  /-- The column is known already. -/
  | again {asked : Cover ε α} {offer : Offer α} (hasked : generation.Asks progress asked offer)
    (himproving : offer.isImproving generation.settings.tolerance = .ok true)
    (hknown : asked.hasColumn offer.column = .ok true) (h : fault = pricedAgain offer)
  /-- The column is refused. -/
  | addition {asked : Cover ε α} {offer : Offer α} (hasked : generation.Asks progress asked offer)
    (himproving : offer.isImproving generation.settings.tolerance = .ok true)
    (hnew : asked.hasColumn offer.column = .ok false)
    (h : (asked.addColumn generation.engine offer.column .null).2 = .error fault)

/-- How a round is interrupted, with the columns that it has added by then: by an observer, who is
asked only after the column was added, or by the listener, who may hear of events before and after. -/
inductive Interrupts (generation : Generation ε σ α) (progress : Progress ε σ α) (fault : Fault) :
    List (Column α) → Prop
  | observer {asked : Cover ε α} {offer : Offer α} {id : Datum} {observer : Observer α}
    {done : Round α} (hasked : generation.Asks progress asked offer)
    (himproving : offer.isImproving generation.settings.tolerance = .ok true)
    (hadded : (asked.addColumn generation.engine offer.column .null).2 =
      .ok { offer.column with id })
    (hobserver : observer ∈ generation.observers)
    (hnumber : done.number = progress.history.length + 1) (h : observer done = .error fault) :
    Interrupts generation progress fault [{ offer.column with id }]
  | listener {event : Event} (h : progress.cover.problem.listener event = .error fault) :
    Interrupts generation progress fault []
  | listenerAfter {asked : Cover ε α} {offer : Offer α} {id : Datum} {event : Event}
    (hasked : generation.Asks progress asked offer)
    (himproving : offer.isImproving generation.settings.tolerance = .ok true)
    (h : progress.cover.problem.listener event = .error fault) :
    Interrupts generation progress fault [{ offer.column with id }]

/-- What a round that fails has done: it breaks off and leaves the columns as they were, or it is
interrupted and leaves the column that it has added by then, if any. -/
def Stops (generation : Generation ε σ α) (progress : Progress ε σ α) (fault : Fault)
    (columns : List (Column α)) : Prop :=
  (generation.Breaks progress fault ∧ columns = progress.cover.pool.columns) ∨
    ∃ left, generation.Interrupts progress fault left ∧
      columns = progress.cover.pool.columns ++ left

omit [Quantity α] in
/-- If telling of events fails, it is the listener who failed. -/
theorem exists_of_tell_error {events : List Event} (h : progress.tell events = (after, .error fault)) :
    ∃ event, progress.cover.problem.listener event = .error fault := by
  induction events generalizing progress with
  | nil => cases h
  | cons event rest ih =>
    rw [Progress.tell] at h
    split at h
    · next told _ htold =>
      obtain ⟨-, hfault⟩ := Prod.mk.inj h
      obtain rfl := Except.error.inj hfault
      exact ⟨event, (Cover.of_tell_error htold).1⟩
    · next told htold =>
      have hnoted := progress.cover.noted_tell event
      rw [htold] at hnoted
      rw [← hnoted.listener_eq]
      exact ih h

/-- An offer that is not decided on cannot be compared, or its column cannot be looked up or is known
already. -/
theorem isAccepted_eq_error {cover : Cover ε α} {offer : Offer α}
    (h : generation.isAccepted cover offer = .error fault) :
    offer.isImproving generation.settings.tolerance = .error fault ∨
      offer.isImproving generation.settings.tolerance = .ok true ∧
        (cover.hasColumn offer.column = .error fault ∨
          cover.hasColumn offer.column = .ok true ∧ fault = pricedAgain offer) := by
  rw [isAccepted] at h
  rcases himproving : offer.isImproving generation.settings.tolerance with found | _ | _ <;>
    rw [himproving] at h
  · exact Or.inl (congrArg Except.error (Except.error.inj h))
  · cases h
  · rcases hknown : cover.hasColumn offer.column with found | _ | _ <;> simp only [hknown] at h
    · exact Or.inr ⟨rfl, Or.inl (congrArg Except.error (Except.error.inj h))⟩
    · cases h
    · exact Or.inr ⟨rfl, Or.inr ⟨rfl, (Except.error.inj h).symm⟩⟩

namespace Asks

variable {asked : Cover ε α} {offer : Offer α}

/-- Until a round decides on an offer, it adds no column. -/
theorem columns_eq (h : generation.Asks progress asked offer) :
    asked.pool.columns = progress.cover.pool.columns := by
  obtain ⟨relaxed, _, _, _, hrelaxation, -, hnoted⟩ := h
  rw [hnoted.pool_eq, (Cover.keeps_of_solveRelaxation hrelaxation).1]

/-- Until a round decides on an offer, it keeps the listener. -/
theorem listener_eq (h : generation.Asks progress asked offer) :
    asked.problem.listener = progress.cover.problem.listener := by
  obtain ⟨relaxed, _, _, _, hrelaxation, -, hnoted⟩ := h
  rw [hnoted.listener_eq, (Cover.keeps_of_solveRelaxation hrelaxation).2]

/-- A round in which an offer is not decided on, or its column not added, stops there. -/
theorem stops_of_accept_error (h : generation.Asks progress asked offer) {grown : Cover ε α}
    (haccept : generation.accept asked offer = (grown, .error fault)) :
    generation.Stops progress fault grown.pool.columns := by
  rw [accept] at haccept
  split at haccept
  · next _ hundecided =>
    obtain ⟨rfl, hfault⟩ := Prod.mk.inj haccept
    obtain rfl := Except.error.inj hfault
    refine Or.inl ⟨?_, h.columns_eq⟩
    rcases isAccepted_eq_error hundecided with
      hcomparison | ⟨himproving, hlookup | ⟨hknown, hagain⟩⟩
    · exact .comparison h hcomparison
    · exact .lookup h himproving hlookup
    · exact .again h himproving hknown hagain
  · cases haccept
  · next haccepted =>
    split at haccept
    · next last _ hadd =>
      obtain ⟨rfl, hfault⟩ := Prod.mk.inj haccept
      obtain rfl := Except.error.inj hfault
      obtain ⟨himproving, hnew⟩ := of_isAccepted haccepted
      rcases Cover.columns_of_addColumn_error hadd with hsame | ⟨⟨event, hlistener⟩, id, hgrown⟩
      · exact Or.inl ⟨.addition h himproving (hnew rfl) (by rw [hadd]), hsame.trans h.columns_eq⟩
      · rw [h.listener_eq] at hlistener
        rw [h.columns_eq] at hgrown
        exact Or.inr ⟨_, .listenerAfter h himproving hlistener, hgrown⟩
    · cases haccept

end Asks

/-- A round that fails before its column is added, or when it is added, stops there. -/
theorem stops_of_advance_error (h : generation.advance progress = (after, .error fault)) :
    generation.Stops progress fault after.cover.pool.columns := by
  simp only [advance] at h
  split at h
  · next relaxed _ hrelaxation =>
    obtain ⟨rfl, hfault⟩ := Prod.mk.inj h
    obtain rfl := Except.error.inj hfault
    refine Or.inl ⟨.relaxation (by rw [hrelaxation]), ?_⟩
    rw [(Cover.keeps_of_solveRelaxation hrelaxation).1]
  · next relaxed solution hrelaxation =>
    obtain ⟨hpool, hlistener⟩ := Cover.keeps_of_solveRelaxation hrelaxation
    rcases hprice : generation.oracle.price progress.oracle solution.duals with
      ⟨oracle, events, priced⟩
    simp only [hprice] at h
    split at h
    · next htold =>
      obtain ⟨rfl, hfault⟩ := Prod.mk.inj h
      obtain rfl := Except.error.inj hfault
      obtain ⟨told, hnoted, rfl⟩ := of_tell htold
      obtain ⟨event, hfails⟩ := exists_of_tell_error htold
      refine Or.inr ⟨[], .listener (hlistener ▸ hfails), ?_⟩
      rw [List.append_nil, hnoted.pool_eq, hpool]
    · next htold =>
      obtain ⟨rfl, hfault⟩ := Prod.mk.inj h
      obtain rfl := Except.error.inj hfault
      obtain ⟨told, hnoted, rfl⟩ := of_tell htold
      refine Or.inl ⟨.pricing (by rw [hrelaxation]) (by rw [hprice]), ?_⟩
      rw [hnoted.pool_eq, hpool]
    · next _ offer htold =>
      obtain ⟨told, hnoted, rfl⟩ := of_tell htold
      split at h
      · next grown _ haccept =>
        obtain ⟨rfl, hfault⟩ := Prod.mk.inj h
        obtain rfl := Except.error.inj hfault
        have hasked : generation.Asks progress told offer :=
          ⟨relaxed, solution, oracle, events, hrelaxation, hprice, hnoted⟩
        exact hasked.stops_of_accept_error haccept
      · cases h

omit [Quantity α] in
/-- If closing a run fails, it is the listener who failed. -/
theorem of_close_error {event : Event} {status : GenerationStatus}
    (h : progress.close event status = (after, .error fault)) :
    after.cover.pool = progress.cover.pool ∧
      ∃ event, progress.cover.problem.listener event = .error fault := by
  rw [Progress.close] at h
  rcases htell : progress.tell [event] with ⟨told, heard⟩
  rw [htell] at h
  obtain ⟨rfl, hfault⟩ := Prod.mk.inj h
  obtain rfl := map_eq_error.mp hfault
  obtain ⟨cover, hnoted, rfl⟩ := of_tell htell
  exact ⟨hnoted.pool_eq, exists_of_tell_error htell⟩

omit [Quantity α] in
/-- If asking the observers about a round fails, one of them failed, or the listener. -/
theorem of_observe_error {done : Round α}
    (h : generation.observe progress done = (after, .error fault)) :
    after.cover.pool = progress.cover.pool ∧
      ((∃ observer ∈ generation.observers, observer done = .error fault) ∨
        ∃ event, progress.cover.problem.listener event = .error fault) := by
  rw [observe] at h
  rcases hconsult : consult done 0 generation.observers with ⟨calls, continues⟩
  simp only [hconsult] at h
  split at h
  · obtain ⟨rfl, hfault⟩ := Prod.mk.inj h
    obtain rfl := Except.error.inj hfault
    exact ⟨rfl, Or.inl (exists_of_consult (by rw [hconsult]) (by simp))⟩
  · cases h
  · obtain ⟨hclosed, hfault⟩ := Prod.mk.inj h
    obtain ⟨hpool, hlistener⟩ := of_close_error (Prod.ext hclosed (map_eq_error.mp hfault))
    exact ⟨hpool, Or.inr hlistener⟩

/-- A round that has advanced came to an offer, and still has its listener; it has added no column, or
the one that was offered because it improves. -/
theorem exists_asks_of_advance {advanced : Progress ε σ α} {solution : CoverSolution α}
    {offer : Offer α} {added : Nat}
    (h : generation.advance progress = (advanced, .ok (solution, offer, added))) :
    ∃ asked, generation.Asks progress asked offer ∧
      advanced.cover.problem.listener = progress.cover.problem.listener ∧
      advanced.history = progress.history ∧
      (added = 0 ∧ advanced.cover.pool.columns = progress.cover.pool.columns ∨
        offer.isImproving generation.settings.tolerance = .ok true ∧ ∃ id,
          (asked.addColumn generation.engine offer.column .null).2 =
            .ok { offer.column with id } ∧
          advanced.cover.pool.columns =
            progress.cover.pool.columns ++ [{ offer.column with id }]) := by
  obtain ⟨relaxed, asked, oracle, events, grown, hrelaxation, hprice, hnoted, haccept, rfl⟩ :=
    of_advance h
  have hasked : generation.Asks progress asked offer :=
    ⟨relaxed, solution, oracle, events, hrelaxation, hprice, hnoted⟩
  rcases of_accept haccept with ⟨-, rfl, rfl⟩ | ⟨himproving, rfl, -, stored, hadd⟩
  · exact ⟨_, hasked, hasked.listener_eq, rfl, Or.inl ⟨rfl, hasked.columns_eq⟩⟩
  · obtain ⟨⟨id, rfl⟩, hgrown⟩ := Cover.columns_of_addColumn hadd
    have hkept := Problem.kept_listener generation.engine progress.cover.problem.listener
    have hlistener := hkept.addColumn hasked.listener_eq offer.column .null
    rw [hadd] at hlistener
    rw [hasked.columns_eq] at hgrown
    exact ⟨asked, hasked, hlistener, rfl, Or.inr ⟨himproving, id, by rw [hadd], hgrown⟩⟩

/-- What is left to fail once a round has advanced are the observers, if a column was added, and the
listener. -/
theorem stops_of_advanced {advanced : Progress ε σ α} {solution : CoverSolution α}
    {offer : Offer α} {added : Nat} {columns : List (Column α)}
    (h : generation.advance progress = (advanced, .ok (solution, offer, added)))
    (hcolumns : columns = advanced.cover.pool.columns)
    (hfails : (added ≠ 0 ∧ ∃ observer ∈ generation.observers, ∃ done : Round α,
        done.number = progress.history.length + 1 ∧ observer done = .error fault) ∨
      ∃ event, advanced.cover.problem.listener event = .error fault) :
    generation.Stops progress fault columns := by
  obtain ⟨asked, hasked, hlistener, -, ⟨hnone, hsame⟩ | ⟨himproving, id, hadd, hgrown⟩⟩ :=
    exists_asks_of_advance h
  · obtain ⟨hadded, -⟩ | ⟨event, hfails⟩ := hfails
    · exact absurd hnone hadded
    · refine Or.inr ⟨[], .listener (hlistener ▸ hfails), ?_⟩
      rw [List.append_nil, hcolumns, hsame]
  · obtain ⟨-, observer, hobserver, done, hnumber, hfails⟩ | ⟨event, hfails⟩ := hfails
    · exact Or.inr ⟨_, .observer hasked himproving hadd hobserver hnumber hfails,
        hcolumns.trans hgrown⟩
    · exact Or.inr ⟨_, .listenerAfter hasked himproving (hlistener ▸ hfails),
        hcolumns.trans hgrown⟩

/-- A round that fails stops there. -/
theorem stops_of_round_error (h : generation.round progress = (after, .error fault)) :
    generation.Stops progress fault after.cover.pool.columns := by
  simp only [round] at h
  split at h
  · next hadvance =>
    obtain ⟨rfl, hfault⟩ := Prod.mk.inj h
    obtain rfl := Except.error.inj hfault
    exact stops_of_advance_error hadvance
  · next advanced solution offer added hadvance =>
    -- From here on the columns stay: only telling, closing and the observers are left.
    obtain ⟨_, -, -, hhistory, -⟩ := exists_asks_of_advance hadvance
    split at h
    · next reported _ htold =>
      obtain ⟨rfl, hfault⟩ := Prod.mk.inj h
      obtain rfl := Except.error.inj hfault
      obtain ⟨event, hfails⟩ := exists_of_tell_error htold
      obtain ⟨told, hnoted, rfl⟩ := of_tell htold
      exact stops_of_advanced hadvance (congrArg ColumnPool.columns hnoted.pool_eq)
        (Or.inr ⟨event, hfails⟩)
    · next reported htold =>
      obtain ⟨told, hnoted, rfl⟩ := of_tell htold
      have hpool : told.pool = advanced.cover.pool := hnoted.pool_eq
      have hlistener : told.problem.listener = advanced.cover.problem.listener := hnoted.listener_eq
      split at h
      · obtain ⟨hclosed, hfault⟩ := Prod.mk.inj h
        obtain ⟨hsame, hfails⟩ := of_close_error (Prod.ext hclosed (map_eq_error.mp hfault))
        refine stops_of_advanced hadvance (congrArg ColumnPool.columns (hsame.trans hpool)) ?_
        rw [← hlistener]
        exact Or.inr hfails
      · next hadded =>
        obtain ⟨hsame, hobserved | hfails⟩ := of_observe_error h
        · obtain ⟨observer, hobserver, hfails⟩ := hobserved
          exact stops_of_advanced hadvance (congrArg ColumnPool.columns (hsame.trans hpool))
            (Or.inl ⟨hadded, observer, hobserver, _, by rw [← hhistory], hfails⟩)
        · refine stops_of_advanced hadvance (congrArg ColumnPool.columns (hsame.trans hpool)) ?_
          rw [← hlistener]
          exact Or.inr hfails

/-- A round after which a run goes on keeps the listener. -/
theorem listener_of_round {result : Option GenerationStatus}
    (h : generation.round progress = (after, .ok result)) :
    after.cover.problem.listener = progress.cover.problem.listener := by
  obtain ⟨advanced, solution, offer, added, cover, done, hadvance, -, -, hnoted, rfl⟩ := of_round h
  obtain ⟨_, -, hlistener, -⟩ := exists_asks_of_advance hadvance
  exact hnoted.listener_eq.trans hlistener

/-- The rounds that a run finishes before one of them fails, the run as it then is, and the columns
that were priced. They are the rounds of a run that spends a budget of as many rounds, and each of
them added the column that it was offered. -/
structure Finishes (generation : Generation ε σ α) (start : Progress ε σ α)
    (turns : List (Turn ε σ α)) (broken : Progress ε σ α) (priced : List (Column α)) : Prop where
  unfolds : generation.Unfolds turns.length start turns broken .iterationLimit
  priced_eq : List.Forall₂ (fun turn column => ∃ id, column = { turn.offer.column with id }) turns
    priced
  columns_eq : broken.cover.pool.columns = start.cover.pool.columns ++ priced
  listener_eq : broken.cover.problem.listener = start.cover.problem.listener

/-- A run that has not begun has finished no rounds. -/
theorem Finishes.refl (generation : Generation ε σ α) (progress : Progress ε σ α) :
    generation.Finishes progress [] progress [] where
  unfolds := .spent (.refl _)
  priced_eq := .nil
  columns_eq := (List.append_nil _).symm
  listener_eq := rfl

/-- A round after which a run goes on comes before the rounds that are finished from then on. -/
theorem Finishes.cons {turn : Turn ε σ α} {turns : List (Turn ε σ α)} {broken : Progress ε σ α}
    {priced : List (Column α)} (h : generation.Plays progress turn none)
    (hlistener : (generation.entered progress turn).cover.problem.listener =
      progress.cover.problem.listener)
    (hrest : generation.Finishes (generation.entered progress turn) turns broken priced) :
    ∃ column, generation.Finishes progress (turn :: turns) broken (column :: priced) := by
  rcases h.isTurn.added_cases with ⟨hdeclined, -⟩ | ⟨-, id, hadded⟩
  · rw [h.concludes.1] at hdeclined
    cases hdeclined
  · refine ⟨{ turn.offer.column with id }, .next h hrest.unfolds, .cons ⟨id, rfl⟩ hrest.priced_eq, ?_,
      hrest.listener_eq.trans hlistener⟩
    rw [hrest.columns_eq, entered, h.isTurn.columns_eq, hadded, h.before_eq, List.append_assoc]
    rfl

/-- A run of rounds that fails stops in a round, after it has finished those before it. -/
theorem exists_of_loop_error {rounds : Nat}
    (h : generation.loop rounds progress = (after, .error fault)) :
    ∃ turns broken priced, generation.Finishes progress turns broken priced ∧
      turns.length ≤ rounds ∧ generation.Stops broken fault after.cover.pool.columns := by
  induction rounds generalizing progress with
  | zero =>
    -- The budget is spent, so that it is the listener who fails to hear of it.
    rw [loop] at h
    obtain ⟨hpool, event, hfails⟩ := of_close_error h
    refine ⟨[], progress, [], .refl generation progress, le_rfl, Or.inr ⟨[], .listener hfails, ?_⟩⟩
    rw [List.append_nil, hpool]
  | succ rounds ih =>
    rw [loop] at h
    split at h
    · next stopped _ hround =>
      obtain ⟨rfl, hfault⟩ := Prod.mk.inj h
      obtain rfl := Except.error.inj hfault
      exact ⟨[], progress, [], .refl generation progress, Nat.zero_le _,
        stops_of_round_error hround⟩
    · cases h
    · next advanced hround =>
      have hlistener := listener_of_round hround
      obtain ⟨turn, hplays, rfl⟩ := exists_turn hround
      obtain ⟨turns, broken, priced, hfinishes, hlength, hstops⟩ := ih h
      obtain ⟨column, hfinishes⟩ := hfinishes.cons hplays hlistener
      exact ⟨turn :: turns, broken, column :: priced, hfinishes, Nat.succ_le_succ hlength, hstops⟩

/-- How a run fails after its rounds: its columns in use cannot be told, or the integer restriction
fails. -/
def FailsAfter (generation : Generation ε σ α) (ended : Progress ε σ α) (status : GenerationStatus)
    (fault : Fault) : Prop :=
  generation.outcomeOf ended status = .error fault ∨
    ∃ found, generation.outcomeOf ended status = .ok found ∧
      generation.settings.solveInteger.truthy = true ∧
      (generation.restrict ended found).2 = .error fault

/-- A run that fails does so in its rounds, or after them with the columns that they left. -/
theorem of_solve_error {cover : Cover ε α} {oracle : σ}
    (h : generation.solve cover oracle = (after, .error fault)) :
    generation.loop generation.settings.rounds { cover, oracle } = (after, .error fault) ∨
      ∃ ended status,
        generation.loop generation.settings.rounds { cover, oracle } = (ended, .ok status) ∧
        generation.FailsAfter ended status fault ∧ after.cover.pool = ended.cover.pool := by
  simp only [solve] at h
  split at h
  · next hloop =>
    obtain ⟨rfl, hfault⟩ := Prod.mk.inj h
    obtain rfl := Except.error.inj hfault
    exact Or.inl hloop
  · next ended status hloop =>
    refine Or.inr ⟨ended, status, hloop, ?_⟩
    split at h
    · next hfound =>
      obtain ⟨rfl, hfault⟩ := Prod.mk.inj h
      obtain rfl := Except.error.inj hfault
      exact ⟨Or.inl hfound, rfl⟩
    · next found hfound =>
      split at h
      · next htruthy =>
        refine ⟨Or.inr ⟨found, hfound, htruthy, by rw [h]⟩, ?_⟩
        rw [← (generation.restrict_keeps ended found).1, h]
      · cases h

end Generation

namespace Session

variable {generation : Generation ε σ α} {session after : Session ε σ α} {fault : Fault}

/-- A failing run keeps exactly the finished work. The session has the result and the history that it
had before the run. If a round breaks off, in the relaxation, in pricing, on a column that is known
already or in adding one, then the columns before the run are followed by those that the finished
rounds priced, one for each of them and in their order, and by no others; only a round that an observer
or the listener interrupts may leave a column of its own as well. A run that fails after its rounds has
the columns that they left. -/
theorem keepsFinished_of_solve_error (h : session.solve generation = (after, .error fault)) :
    after.latest = session.latest ∧ after.isSolved = session.isSolved ∧
    after.history = session.history ∧
    ((∃ turns broken priced,
        generation.Finishes { cover := session.cover, oracle := session.oracle } turns broken
          priced ∧ turns.length ≤ generation.settings.rounds ∧
        (generation.Breaks broken fault ∧
            after.cover.pool.columns = session.cover.pool.columns ++ priced ∨
          ∃ left, generation.Interrupts broken fault left ∧
            after.cover.pool.columns = session.cover.pool.columns ++ priced ++ left)) ∨
      ∃ ended status,
        generation.loop generation.settings.rounds
          { cover := session.cover, oracle := session.oracle } = (ended, .ok status) ∧
        generation.FailsAfter ended status fault ∧
        after.cover.pool.columns = ended.cover.pool.columns) := by
  rw [solve] at h
  rcases hsolve : generation.solve session.cover session.oracle with ⟨progress, outcome⟩
  rw [hsolve] at h
  obtain ⟨rfl, rfl⟩ := Prod.mk.inj h
  refine ⟨rfl, rfl, rfl, ?_⟩
  rcases Generation.of_solve_error hsolve with hloop | ⟨ended, status, hloop, hfails, hpool⟩
  · obtain ⟨turns, broken, priced, hfinishes, hlength, hstops⟩ :=
      Generation.exists_of_loop_error hloop
    refine Or.inl ⟨turns, broken, priced, hfinishes, hlength, ?_⟩
    rcases hstops with ⟨hbreaks, hcolumns⟩ | ⟨left, hinterrupts, hcolumns⟩
    · exact Or.inl ⟨hbreaks, hcolumns.trans hfinishes.columns_eq⟩
    · refine Or.inr ⟨left, hinterrupts, hcolumns.trans ?_⟩
      rw [hfinishes.columns_eq]
  · exact Or.inr ⟨ended, status, hloop, hfails, congrArg ColumnPool.columns hpool⟩

/-- A cover of one item over a recorder that solves once and then finds the relaxation infeasible. -/
def stallingBuild : Cover (Recorder Rat) Rat × Except Fault Unit :=
  let solved : Scene Rat :=
    { status := .optimal, objective := .ok (some 1), dual := fun _ => .ok 1 }
  let recorder : Recorder Rat :=
    { script := [solved, { solved with status := .infeasible }], primal := usualValue }
  Cover.build Recorder.engine { engine := recorder } [⟨2, 1, .null, Nat.zero_lt_two⟩] (.text "rolls") true

/-- A session over this cover that knows an earlier result of three rounds. -/
def stalled : Session (Recorder Rat) (Rehearsal.State Rat) Rat :=
  { cover := stallingBuild.1, oracle := {}, latest := some { rounds := 3 } }

/-- Nobody listens to the stalled session. -/
theorem listener_stalled : stalled.cover.problem.listener = Listener.deaf := by
  have hkept := Problem.kept_listener (Recorder.engine : Engine (Recorder Rat) Rat) Listener.deaf
  have hok : stallingBuild.2.toOption.isSome = true := by decide +kernel
  change stallingBuild.1.problem.listener = Listener.deaf
  rcases hbuild : stallingBuild with ⟨cover, fault | ⟨⟩⟩
  · rw [hbuild] at hok
    cases hok
  · rw [stallingBuild] at hbuild
    exact Cover.keeps_build hkept (fun created hcreate _ => hkept.create rfl hcreate) hbuild

/-- The stalled session fails in the second round: it has the column that the first one priced, and
its earlier result. -/
theorem keepsFinished_stalled :
    ∃ (after : Session (Recorder Rat) (Rehearsal.State Rat) Rat) (fault : Fault)
      (turns : List (Turn (Recorder Rat) (Rehearsal.State Rat) Rat))
      (broken : Generation.Progress (Recorder Rat) (Rehearsal.State Rat) Rat)
      (priced : List (Column Rat)),
      stalled.solve Generation.rehearsed = (after, .error fault) ∧
      after.latest.map (·.rounds) = some 3 ∧ after.cover.numColumns = 2 ∧ turns.length = 1 ∧
      Generation.rehearsed.Finishes { cover := stalled.cover, oracle := stalled.oracle } turns broken
        priced ∧
      Generation.rehearsed.Breaks broken fault ∧
      after.cover.pool.columns = stalled.cover.pool.columns ++ priced := by
  have hfails : (stalled.solve Generation.rehearsed).2.toOption.isNone = true := by decide +kernel
  have hgrown : (stalled.solve Generation.rehearsed).1.cover.numColumns = 2 := by decide +kernel
  have hfirst : stalled.cover.pool.columns.length = 1 := by decide +kernel
  have hloop : (Generation.rehearsed.loop Generation.rehearsed.settings.rounds
      { cover := stalled.cover, oracle := stalled.oracle }).2.toOption.isNone = true := by
    decide +kernel
  rcases h : stalled.solve Generation.rehearsed with ⟨after, fault | outcome⟩
  · rw [h] at hgrown
    obtain ⟨hlatest, -, -, hrounds | ⟨ended, status, hended, -⟩⟩ := keepsFinished_of_solve_error h
    · obtain ⟨turns, broken, priced, hfinishes, -, ⟨hbreaks, hcolumns⟩ | ⟨left, hinterrupts, -⟩⟩ :=
        hrounds
      · have hsum := congrArg List.length hcolumns
        rw [List.length_append, hfirst, ← hfinishes.priced_eq.length_eq] at hsum
        have hlength : turns.length = 1 := Nat.add_left_cancel (hsum.symm.trans hgrown)
        exact ⟨after, fault, turns, broken, priced, rfl, by rw [hlatest]; rfl, hgrown, hlength,
          hfinishes, hbreaks, hcolumns⟩
      · -- Neither the observer nor the listener of this session ever fails.
        have hdeaf := hfinishes.listener_eq.trans listener_stalled
        cases hinterrupts with
        | observer _ _ _ hobserver _ hobserved =>
          obtain rfl := List.mem_singleton.mp hobserver
          cases hobserved
        | listener hheard | listenerAfter _ _ hheard =>
          rw [hdeaf] at hheard
          cases hheard
    · rw [hended] at hloop
      cases hloop
  · rw [h] at hfails
    cases hfails

end Session

end PatternCovering
