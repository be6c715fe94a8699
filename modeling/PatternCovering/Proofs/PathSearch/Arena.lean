import PatternCovering.Proofs.PathSearch.Books

/-!
# The pools that a search comes by

Between two moves the pool of a search is that of a reached point. While a label is created, and
when a search is broken off by a fault, the pool is in between: the label is in the arena and was
not inserted yet, or its insertion was broken off. A search is left with such a pool or with that of
a reached point, however it ends.
-/

namespace PatternCovering

namespace PathSearch

variable {α : Type} [Quantity α] {search : PathSearch Int α} {costs : Array α}

/-- The pools that a search comes by: those of the points that it reaches, those in which a label
was created but not inserted, and those that an insertion leaves, also one that fails. -/
inductive Seen (search : PathSearch Int α) (costs : Array α) : LabelPool Int α → Prop
  | point {config : Config α} (h : Reached search costs config) : Seen search costs config.state.pool
  | created {state : State Int α} {node id : Nat} {todo : List Nat} {label : Label Int α}
    {arc : Arc Int α} {price : α} {arcs : List (Arc Int α × α)} {used : List α} {cost : α}
    (h : Reached search costs ⟨.extending node todo id label ((arc, price) :: arcs), state⟩)
    (hinside : search.extension state.pool label arc price = .ok (.inside used cost)) :
    Seen search costs (withExtension state.pool label arc used cost)
  | inserted {state : State Int α} {node id : Nat} {todo : List Nat} {label : Label Int α}
    {arc : Arc Int α} {price : α} {arcs : List (Arc Int α × α)} {used : List α} {cost : α}
    (h : Reached search costs ⟨.extending node todo id label ((arc, price) :: arcs), state⟩)
    (hinside : search.extension state.pool label arc price = .ok (.inside used cost)) :
    Seen search costs ((withExtension state.pool label arc used cost).insert state.pool.numCreated
      search.settings.useDominance).1

variable {state : State Int α} {node id : Nat} {todo : List Nat}

/-- A label that grows into a new one leaves the new one in the arena, inserted or not. -/
theorem pool_grow_cases (search : PathSearch Int α) (state : State Int α) (label : Label Int α)
    (arc : Arc Int α) (used : List α) (cost : α) :
    (search.grow state label arc used cost).pool = withExtension state.pool label arc used cost ∨
      (search.grow state label arc used cost).pool =
        ((withExtension state.pool label arc used cost).insert state.pool.numCreated
          search.settings.useDominance).1 := by
  rcases grow_cases search state label arc used cost with
    ⟨pool, target, inserted, -, hinsert, hgrown⟩ | -
  · right
    rw [hgrown, State.grown_pool, hinsert]
  · obtain ⟨known, queue, waiting, extended, visits, stop⟩ := state
    simp only [grow, withExtension, enqueue]
    repeat' split
    all_goals simp_all

/-- Extending a label along an arc leaves a pool that is seen. -/
theorem seen_extendAlong {label : Label Int α} {arc : Arc Int α} {price : α}
    {arcs : List (Arc Int α × α)} (hstop : state.stop = none)
    (h : Reached search costs ⟨.extending node todo id label ((arc, price) :: arcs), state⟩) :
    Seen search costs (search.extendAlong label state arc price).pool := by
  simp only [extendAlong, hstop, Option.isSome_none, Bool.false_eq_true, if_false]
  split
  · exact Seen.point h
  · exact Seen.point h
  · exact Seen.point h
  · next used cost hinside =>
    rcases pool_grow_cases search state label arc used cost with heq | heq
    · rw [heq]
      exact Seen.created h hinside
    · rw [heq]
      exact Seen.inserted h hinside

/-- Following arcs leaves a pool that is seen. -/
theorem seen_extendArcs {label : Label Int α} (arcs : List (Arc Int α × α))
    (hstop : state.stop = none)
    (h : Reached search costs ⟨.extending node todo id label arcs, state⟩) :
    Seen search costs (search.extendArcs label arcs state).pool := by
  induction arcs generalizing state with
  | nil => exact Seen.point h
  | cons first rest ih =>
    obtain ⟨arc, price⟩ := first
    have hseen := seen_extendAlong hstop h
    change Seen search costs
      (search.extendArcs label rest (search.extendAlong label state arc price)).pool
    rcases extendAlong_cases search hstop label arc price with
      ⟨houtside, heq⟩ | ⟨-, heq⟩ | ⟨used, cost, pool, target, inserted, hinside, htarget, hinsert,
        heq⟩ | ⟨cause, hcause⟩
    · rw [heq]
      exact ih hstop (h.tail (Move.outside houtside))
    · rw [extendArcs_of_stop (by simp [heq])]
      exact hseen
    · rw [heq]
      exact ih (by simpa using hstop) (h.tail (Move.grow hinside htarget hinsert))
    · rw [extendArcs_of_stop (by simp [hcause])]
      exact hseen

/-- Looking at a label leaves a pool that is seen. -/
theorem seen_extendLabel (hstop : state.stop = none)
    (h : Reached search costs ⟨.visiting node (id :: todo), state⟩) :
    Seen search costs (search.extendLabel (search.arcsFrom costs node) state id).pool := by
  rw [extendLabel_eq hstop]
  split
  · exact Seen.point h
  · next label hlabel =>
    split
    · exact Seen.point h
    · next hdone =>
      simp only [Bool.or_eq_true, not_or, Bool.not_eq_true] at hdone
      exact seen_extendArcs _ hstop (h.tail (Move.begin hlabel hdone.1 hdone.2))

/-- Looking at labels one after the other leaves a pool that is seen. -/
theorem seen_extendLabels (ids : List Nat) (hstop : state.stop = none)
    (h : Reached search costs ⟨.visiting node ids, state⟩) :
    Seen search costs (ids.foldl (search.extendLabel (search.arcsFrom costs node)) state).pool := by
  induction ids generalizing state with
  | nil => exact Seen.point h
  | cons first rest ih =>
    have hseen := seen_extendLabel hstop h
    rw [List.foldl_cons]
    by_cases hfailed : (search.extendLabel (search.arcsFrom costs node) state first).Failed
    · obtain ⟨cause, hcause⟩ := hfailed
      rw [extendLabels_of_stop (by simp [hcause])]
      exact hseen
    · rcases moves_extendLabel rest hstop hfailed with ⟨hnone, hmoves⟩ | ⟨hlimit, -⟩
      · exact ih hnone (h.trans hmoves)
      · rw [extendLabels_of_stop (by simp [hlimit])]
        exact hseen

/-- Closing a visit leaves the pool as it is. -/
theorem pool_tidy (hwell : search.WellFormed) (hcheck : search.settings.useDominance = true)
    (h : ¬ state.Failed → Reached search costs ⟨.visiting node [], state⟩) :
    (tidy state node).pool = state.pool := by
  rw [tidy]
  split
  · rfl
  · next hfault =>
    have hsound : ¬ state.Failed := by
      rintro ⟨cause, hcause⟩
      exact hfault cause hcause
    have hreached := h hsound
    rw [(hreached.books hwell).sweep_eq hcheck]

/-- A step leaves a pool that is seen. -/
theorem seen_step (hwell : search.WellFormed) (hfinished : state.isFinished = false)
    (h : Reached search costs ⟨.idle, state⟩) :
    Seen search costs (search.step costs state).pool := by
  simp only [State.isFinished, Bool.or_eq_false_iff, Option.isSome_eq_false_iff,
    Option.isNone_iff_eq_none] at hfinished
  obtain ⟨hqueue, hstop⟩ := hfinished
  obtain ⟨node, rest, hqueue⟩ : ∃ node rest, state.queue = node :: rest := by
    cases hcases : state.queue with
    | nil => simp [hcases] at hqueue
    | cons node rest => exact ⟨node, rest, rfl⟩
  have hreached : Reached search costs _ := h.tail (Move.pop hstop hqueue)
  simp only [step, hqueue, visit, ← Array.foldl_toList]
  generalize hpopped : ({ state with
    queue := rest
    waiting := state.waiting.setIfInBounds node false
    visits := state.visits + 1 } : State Int α) = popped at hreached ⊢
  have hnone : popped.stop = none := by rw [← hpopped]; exact hstop
  have hseen := seen_extendLabels _ hnone hreached
  cases hcheck : search.settings.useDominance with
  | false => exact hseen
  | true =>
    simp only [if_true]
    rw [pool_tidy hwell hcheck fun hvisit => hreached.trans (moves_extendLabels _ hnone hvisit)]
    exact hseen

/-- A run leaves a pool that is seen, whether it ends by itself, is stopped or fails. -/
theorem seen_run (hwell : search.WellFormed) (fuel : Nat)
    (h : Reached search costs ⟨.idle, state⟩) :
    Seen search costs (search.run costs fuel state).pool := by
  induction fuel generalizing state with
  | zero => exact Seen.point h
  | succ fuel ih =>
    rw [run]
    split
    · exact Seen.point h
    · next hfinished =>
      by_cases hfailed : (search.step costs state).Failed
      · have hdone : (search.step costs state).isFinished = true := by
          obtain ⟨cause, hcause⟩ := hfailed
          simp [State.isFinished, hcause]
        have hrun : search.run costs fuel (search.step costs state) = search.step costs state := by
          cases fuel with
          | zero => rfl
          | succ fuel => rw [run, if_pos hdone]
        rw [hrun]
        exact seen_step hwell (by simpa using hfinished) h
      · exact ih (h.trans (moves_step (by simpa using hfinished) hfailed))

end PathSearch

end PatternCovering
