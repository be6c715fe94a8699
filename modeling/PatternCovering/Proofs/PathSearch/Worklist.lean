import PatternCovering.Proofs.PathSearch.Books

/-!
# The queue of a path search

A node waits exactly if its flag says so, and it waits once. As long as a search was not stopped,
every live label that was not extended yet stands at a node that waits, or is still to be looked at
in the visit under way. Every visit is paid for by a label, so that there are never more visits than
labels.
-/

namespace PatternCovering

namespace PathSearch

variable {α : Type} {search : PathSearch Int α} {costs : Array α}

/-- Whether a label is still to be looked at in the visit under way. -/
def Phase.Awaits (node id : Nat) : Phase α → Prop
  | .idle => False
  | .visiting place todo => place = node ∧ id ∈ todo
  | .extending place todo _ _ _ => place = node ∧ id ∈ todo

/-- What holds of the queue at every point of a search. -/
structure Worklist (search : PathSearch Int α) (config : Config α) : Prop where
  size_waiting : config.state.waiting.size = search.network.numNodes
  nodup : config.state.queue.Nodup
  waits : ∀ node, config.state.waiting[node]? = some true ↔ node ∈ config.state.queue
  visits_le : config.state.visits + config.state.queue.length ≤ config.state.pool.numCreated
  pending : config.state.stop = none → ∀ node id, id ∈ config.state.pool.liveAt node →
    config.state.extended[id]?.getD false = false →
    node ∈ config.state.queue ∨ config.phase.Awaits node id

/-- When nothing waits any more and the search was not stopped, every live label was extended. -/
theorem Worklist.extended_of_finished {state : State Int α} (h : Worklist search ⟨.idle, state⟩)
    (hstop : state.stop = none) (hqueue : state.queue = []) {node id : Nat}
    (hlive : id ∈ state.pool.liveAt node) : state.extended[id]? = some true := by
  by_contra hnot
  have hnew : state.extended[id]?.getD false = false := by
    rcases hentry : state.extended[id]? with - | flag
    · rfl
    · cases flag
      · rfl
      · exact absurd hentry hnot
  rcases h.pending hstop node id hlive hnew with hwaits | hawaits
  · simp [hqueue] at hwaits
  · exact hawaits

/-- The first node of the queue is taken off. -/
theorem Worklist.pop {state : State Int α} {node : Nat} {rest : List Nat}
    (h : Worklist search ⟨.idle, state⟩) (hstop : state.stop = none)
    (hqueue : state.queue = node :: rest) :
    Worklist search ⟨.visiting node (state.pool.liveAt node).toList, { state with
      queue := rest
      waiting := state.waiting.setIfInBounds node false
      visits := state.visits + 1 }⟩ := by
  have hnodup : (node :: rest).Nodup := hqueue ▸ h.nodup
  refine ⟨by simpa using h.size_waiting, (List.nodup_cons.mp hnodup).2, fun other => ?_, ?_,
    fun _ other id hid hnew => ?_⟩
  · rw [Array.getElem?_setIfInBounds]
    split
    · next heq =>
      subst heq
      have hlast := (List.nodup_cons.mp hnodup).1
      split <;> simp [hlast]
    · next hne =>
      rw [h.waits other, hqueue, List.mem_cons]
      exact or_iff_right (Ne.symm hne)
  · have hvisits := h.visits_le
    simp only [hqueue, List.length_cons] at hvisits
    change state.visits + 1 + rest.length ≤ state.pool.numCreated
    omega
  · by_cases heq : other = node
    · exact Or.inr ⟨heq.symm, Array.mem_toList_iff.mpr (heq ▸ hid)⟩
    · have hwaits := (h.pending hstop other id hid hnew).resolve_right not_false
      simp only [hqueue, List.mem_cons] at hwaits
      exact Or.inl (hwaits.resolve_left heq)

variable [Quantity α]

/-- The source waits when a search starts. -/
theorem Worklist.start (hwell : search.WellFormed) : Worklist search ⟨.idle, search.start⟩ := by
  have hsource := hwell.source_lt
  refine ⟨?_, List.nodup_singleton _, fun node => ?_, ?_, fun _ node id hid _ => Or.inl ?_⟩
  · simp [PathSearch.start]
  · change ((Array.replicate search.network.numNodes false).setIfInBounds search.source true)[node]? =
      some true ↔ node ∈ [search.source]
    rw [Array.getElem?_setIfInBounds, List.mem_singleton]
    by_cases heq : search.source = node
    · subst heq
      simp [hsource]
    · rw [if_neg heq]
      by_cases hlt : node < search.network.numNodes <;> simp [hlt, Ne.symm heq]
  · change 0 + 1 ≤ search.start.pool.numCreated
    rw [← LabelPool.length_history, history_start search hsource]
    simp
  · change id ∈ search.start.pool.liveAt node at hid
    rw [liveAt_start search hsource] at hid
    split at hid
    · next heq => exact heq ▸ List.mem_singleton_self _
    · simp at hid

/-- A label that is created and live makes its node wait. -/
theorem Worklist.grow {state : State Int α} {node id : Nat} {todo : List Nat}
    {label : Label Int α} {arc : Arc Int α} {price : α} {arcs : List (Arc Int α × α)}
    {used : List α} {cost : α} {pool : LabelPool Int α} {target : Nat} {inserted : Bool}
    (h : Worklist search ⟨.extending node todo id label ((arc, price) :: arcs), state⟩)
    (hbooks : Books search costs ⟨.extending node todo id label ((arc, price) :: arcs), state⟩)
    (g : Growth search costs state node id label arc price used cost pool target inserted) :
    Worklist search ⟨.extending node todo id label arcs, state.grown pool target inserted⟩ := by
  have hlt : target < state.waiting.size := h.size_waiting.symm ▸ g.target_lt
  have hwaits := h.waits target
  refine ⟨?_, ?_, fun other => ?_, ?_, fun hstop other known hknown hnew => ?_⟩
  · have hsize := h.size_waiting
    simp only [State.grown_waiting]
    split <;> simpa using hsize
  · simp only [State.grown_queue]
    split
    · next hjoins =>
      rw [List.nodup_append]
      refine ⟨h.nodup, List.nodup_singleton _, fun first hfirst second hsecond heq => ?_⟩
      rw [List.mem_singleton.mp hsecond] at heq
      have htrue := hwaits.mpr (heq ▸ hfirst)
      simp [htrue] at hjoins
    · exact h.nodup
  · simp only [State.grown_waiting, State.grown_queue]
    split
    · rw [Array.getElem?_setIfInBounds, List.mem_append, List.mem_singleton]
      split
      · next heq => simp [heq]
      · next hne =>
        rw [h.waits other]
        exact (or_iff_left (Ne.symm hne)).symm
    · exact h.waits other
  · have hvisits := h.visits_le
    change state.visits + state.queue.length ≤ state.pool.numCreated at hvisits
    simp only [State.grown_visits, State.grown_pool, State.grown_queue, g.numCreated_eq]
    split
    · rw [List.length_append, List.length_singleton]
      omega
    · omega
  · simp only [State.grown_pool, State.grown_extended, State.grown_queue, State.grown_stop]
      at hstop hknown hnew ⊢
    rcases g.live_cases hbooks hknown with hold | ⟨rfl, -, rfl⟩
    · have hsize : known < state.extended.size := by
        have hcreated := hbooks.size_extended
        obtain ⟨entry, hentry, -⟩ := hbooks.sound.live other known hold
        have hsmall := (Array.getElem?_eq_some_iff.mp hentry).1
        exact hcreated ▸ hsmall
      rw [Array.getElem?_push_lt hsize, ← Array.getElem?_eq_getElem hsize] at hnew
      rcases h.pending hstop other known hold hnew with hqueue | hawaits
      · left
        split
        · exact List.mem_append_left _ hqueue
        · exact hqueue
      · exact Or.inr hawaits
    · left
      cases hflag : state.waiting[other]?.getD false with
      | false => simp
      | true =>
        rw [Array.getElem?_eq_getElem hlt] at hflag
        simpa using hwaits.mp ((Array.getElem?_eq_getElem hlt).trans (congrArg some hflag))

/-- A move keeps what holds of the queue. -/
theorem Worklist.move (hwell : search.WellFormed) {before after : Config α}
    (h : Worklist search before) (hbooks : Books search costs before)
    (hmove : Move search costs before after) : Worklist search after := by
  cases hmove with
  | pop hstop hqueue => exact h.pop hstop hqueue
  | @skip state node id todo hskip =>
    refine ⟨h.size_waiting, h.nodup, h.waits, h.visits_le, fun hstop other known hknown hnew => ?_⟩
    rcases h.pending hstop other known hknown hnew with hqueue | ⟨rfl, hmem⟩
    · exact Or.inl hqueue
    · rcases List.mem_cons.mp hmem with rfl | hmem
      · -- a live label is skipped only if it was extended
        obtain ⟨label, hlabel, -, hflag⟩ := hbooks.sound.live node known hknown
        rcases hskip label hlabel with hdominated | hextended
        · rw [hflag] at hdominated
          cases hdominated
        · exact absurd (hnew.symm.trans hextended) (by simp)
      · exact Or.inr ⟨rfl, hmem⟩
  | @begin state node id todo label hlabel hflag hnew =>
    refine ⟨h.size_waiting, h.nodup, h.waits, h.visits_le, fun hstop other known hknown hother => ?_⟩
    simp only [Array.getElem?_setIfInBounds] at hother
    split at hother
    · next heq =>
      have hlt : id < state.extended.size := by
        rw [hbooks.size_extended]
        exact (Array.getElem?_eq_some_iff.mp hlabel).1
      rw [if_pos hlt] at hother
      cases hother
    · next hne =>
      rcases h.pending hstop other known hknown hother with hqueue | ⟨rfl, hmem⟩
      · exact Or.inl hqueue
      · exact Or.inr ⟨rfl, (List.mem_cons.mp hmem).resolve_left (Ne.symm hne)⟩
  | outside houtside => exact ⟨h.size_waiting, h.nodup, h.waits, h.visits_le, h.pending⟩
  | full hfull =>
    refine ⟨h.size_waiting, h.nodup, h.waits, h.visits_le, fun hstop => ?_⟩
    cases hstop
  | grow hinside htarget hinsert => exact h.grow hbooks (hbooks.growth hwell hinside htarget hinsert)
  | finish => exact ⟨h.size_waiting, h.nodup, h.waits, h.visits_le, h.pending⟩
  | @sweep state node count pool hcheck hsweep =>
    simp only [hbooks.sweep_eq hcheck, Prod.mk.injEq] at hsweep
    obtain ⟨rfl, -⟩ := hsweep
    refine ⟨h.size_waiting, h.nodup, h.waits, h.visits_le, fun hstop other known hknown hnew => ?_⟩
    exact Or.inl ((h.pending hstop other known hknown hnew).resolve_right fun hmem => by
      simpa using hmem.2)
  | leave hcheck =>
    refine ⟨h.size_waiting, h.nodup, h.waits, h.visits_le, fun hstop other known hknown hnew => ?_⟩
    exact Or.inl ((h.pending hstop other known hknown hnew).resolve_right fun hmem => by
      simpa using hmem.2)

/-- What is said of the queue holds at every point of a search. -/
theorem Reached.worklist (hwell : search.WellFormed) {config : Config α}
    (h : Reached search costs config) : Worklist search config :=
  h.induct (Worklist.start hwell) fun _ _ hreached hmove hlist =>
    hlist.move hwell (hreached.books hwell) hmove

end PathSearch

end PatternCovering
