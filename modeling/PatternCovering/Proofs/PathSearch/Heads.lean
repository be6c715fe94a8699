import PatternCovering.Proofs.PathSearch.Course
import PatternCovering.Proofs.PathSearch.Enumeration
import PatternCovering.Proofs.PathSearch.Limit

/-!
# What holds before each visit

Before each visit of a search, and when it has ended, the queue and the flags agree, every live
label that was not extended yet stands at a node that waits, and there are no more visits than
labels that became live. A label was extended once, and along each arc that keeps it inside the
windows exactly one label was created for it.

The limit on labels breaks a search off in the middle of extending a label. That is the last one
that was extended; all the others have their extensions. Nothing is assumed about costs and
resources.
-/

namespace PatternCovering

namespace PathSearch

variable {α : Type} [Quantity α] {search : PathSearch Int α} {costs : Array α} {duals : List α}
  {notes : Notes} {config : Config α}

/-- Whether a label is the extension of another one along an arc, with the given resources. -/
structure Extends (duals : List α) (id : Nat) (label : Label Int α) (arc : Arc Int α)
    (used : List α) (next : Label Int α) : Prop where
  predecessor : next.predecessor = some (id : Int)
  along : next.arc = some arc.index
  node : next.node = arc.target
  resources : next.resources = used
  cost : ∃ price, arc.reducedCost (Position.entry duals) = .ok price ∧
    Quantity.add? label.cost price = .ok next.cost

/-- Whether a label was extended along all arcs: for each arc that leaves its node and along which
its resources stay inside the windows, exactly one label is its extension. -/
def IsExtended (search : PathSearch Int α) (duals : List α) (pool : LabelPool Int α) (id : Nat) :
    Prop :=
  ∀ label arc used, pool.history[id]? = some label → arc ∈ search.network.arcs →
    arc.source = label.node → extendResources label.resources arc.consumption = .ok used →
    Window.containsAll search.network.windows used = .ok true →
    ∃! other : Nat, ∃ next, pool.history[other]? = some next ∧
      Extends duals id label arc used next

/-- What holds of the state between two visits, with what was noted up to there. -/
structure IsHead (search : PathSearch Int α) (duals : List α) (state : State Int α) (notes : Notes) :
    Prop where
  queue_nodup : state.queue.Nodup
  queue_lt : ∀ node ∈ state.queue, node < search.network.numNodes
  size_waiting : state.waiting.size = search.network.numNodes
  waiting_iff : ∀ node, state.waiting[node]? = some true ↔ node ∈ state.queue
  unextended_waits : state.stop = none → ∀ node id, id ∈ state.pool.liveAt node →
    id ∉ notes.extended → StandsAt state.pool node id ∧ node ∈ state.queue
  extended_nodup : notes.extended.Nodup
  extended_iff : ∀ id, state.extended[id]? = some true ↔ id ∈ notes.extended
  isExtended : ∀ id ∈ (if state.stop.isNone then notes.extended else notes.extended.dropLast),
    IsExtended search duals state.pool id
  joined_nodup : notes.joined.Nodup
  joined_lt : ∀ id ∈ notes.joined, id < state.pool.numCreated
  visits_le : state.visits ≤ notes.joined.length

/-- Whether a label has its extensions along all arcs that leave its node. -/
def Followed (search : PathSearch Int α) (costs : Array α) (pool : LabelPool Int α) (id : Nat) :
    Prop :=
  ∀ label (node : Nat) arc price more, pool.history[id]? = some label → label.node = (node : Int) →
    (arc, price) ∈ search.arcsFrom costs node →
    extendResources label.resources arc.consumption = .ok more →
    Window.containsAll search.network.windows more = .ok true →
    HasExtension pool.history id label arc price more

/-- An extended label has its extensions at a point where no arc lies ahead of it and the search was
not stopped. -/
theorem Reached.followed (hwell : search.WellFormed) (h : Reached search costs config)
    (hstop : config.state.stop = none) {id : Nat} (hflag : config.state.extended[id]? = some true)
    (hbehind : ∀ arc, ¬ config.phase.Ahead id arc) :
    Followed search costs config.state.pool id :=
  fun label node arc price more hlabel hnode harc => h.follows hwell hstop id label node arc price
    more hlabel hnode hflag harc (hbehind _)

/-- When a search was stopped, every label has its extensions but the last one that was extended. -/
theorem Course.followed (hwell : search.WellFormed) (h : Course search costs notes config)
    (hstop : config.state.stop ≠ none) :
    ∀ id ∈ notes.extended.dropLast, Followed search costs config.state.pool id := by
  induction h with
  | start => exact absurd rfl hstop
  | @move notes before after hcourse hmove ih =>
    have hbooks := hcourse.reached.books hwell
    have hfit := hcourse.fit hwell
    have hsame : ∀ {after : Config α}, after.state.pool = before.state.pool →
        before.phase.begun after.phase = [] → before.state.stop ≠ none →
        ∀ id ∈ (notes.add before after).extended.dropLast,
          Followed search costs after.state.pool id := by
      intro after hpool hbegun hold
      rw [Notes.add, hbegun, hpool, List.append_nil]
      exact ih hold
    cases hmove with
    | pop hnone hqueue => exact absurd hnone hstop
    | skip hskip => exact hsame rfl rfl hstop
    | begin hlabel hflag hnew =>
      exact absurd (hfit.isOpen.stop_eq_none (by simp) (by simp)) hstop
    | outside houtside => exact hsame rfl rfl hstop
    | @full state node id todo label arc price arcs hfull =>
      intro other hother
      have hother : other ∈ notes.extended.dropLast := by
        simpa [Notes.add, Phase.begun] using hother
      refine hcourse.reached.followed hwell (hfit.isOpen.stop_eq_none (by simp) (by simp))
        ((hfit.extended_iff other).mpr (List.mem_of_mem_dropLast hother)) ?_
      rintro _ ⟨heq, -⟩
      exact hfit.ne_of_mem_dropLast hother heq.symm
    | grow hinside htarget hinsert =>
      rw [State.grown_stop] at hstop
      exact absurd (hfit.isOpen.stop_eq_none (by simp) (by simp)) hstop
    | finish => exact hsame rfl rfl hstop
    | sweep hcheck hsweep =>
      simp only [hbooks.sweep_eq hcheck, Prod.mk.injEq] at hsweep
      obtain ⟨rfl, -⟩ := hsweep
      exact hsame rfl rfl hstop
    | leave hcheck => exact hsame rfl rfl hstop

/-- A label that has its extensions was extended along all arcs, once along each. -/
theorem Followed.isExtended (hwell : search.WellFormed) (hcosts : search.arcCosts duals = .ok costs)
    (h : Reached search costs config) {id : Nat}
    (hfollowed : Followed search costs config.state.pool id) :
    IsExtended search duals config.state.pool id := by
  intro label arc used hlabel harc hsource hused hwithin
  have hnode : label.node = (label.node.toNat : Int) := by
    rw [Int.toNat_of_nonneg (hsource ▸ (hwell.network.hasSource arc harc).1)]
  obtain ⟨price, hprice⟩ := hwell.exists_mem_arcsFrom hcosts harc (hsource.trans hnode)
  obtain ⟨other, next, -, hnext, hpredecessor, hindex, htarget, hresources, hcost⟩ :=
    hfollowed label _ arc price used hlabel hnode hprice hused hwithin
  obtain ⟨-, -, hfound, hlisted⟩ := hwell.mem_arcs hprice
  refine ⟨other, ⟨next, hnext, hpredecessor, hindex, htarget, hresources, price,
    reducedCost_of_arcCosts hcosts hfound hlisted, hcost⟩, ?_⟩
  rintro place ⟨known, hknown, hextends⟩
  exact (h.once hwell).distinct place other known next hknown hnext
    (hextends.predecessor.trans hpredecessor.symm) (hextends.along.trans hindex.symm)

/-- What is noted up to a point between two visits says what holds there. -/
theorem Course.isHead (hwell : search.WellFormed) (hcosts : search.arcCosts duals = .ok costs)
    {state : State Int α} (h : Course search costs notes ⟨.idle, state⟩) :
    IsHead search duals state notes := by
  have hreached := h.reached
  have hbooks := hreached.books hwell
  have hlist := hreached.worklist hwell
  have hfit := h.fit hwell
  refine ⟨hlist.nodup, hbooks.queue_lt, hlist.size_waiting, hlist.waits, ?_, hfit.extended_nodup,
    hfit.extended_iff, ?_, hfit.joined_nodup, hfit.joined_lt,
    Nat.le_trans (Nat.le_add_right _ _) hfit.paid⟩
  · intro hstop node id hlive hnew
    refine ⟨hbooks.standsAt hlive, (hlist.pending hstop node id hlive ?_).resolve_right not_false⟩
    by_contra hflag
    refine hnew ((hfit.extended_iff id).mp ?_)
    cases hentry : state.extended[id]? with
    | none => simp [hentry] at hflag
    | some flag => simpa [hentry] using hflag
  · intro id hid
    refine Followed.isExtended hwell hcosts hreached ?_
    rcases hstop : state.stop with - | stop
    · simp only [hstop, Option.isNone_none, if_true] at hid
      exact hreached.followed hwell hstop ((hfit.extended_iff id).mpr hid) fun _ => not_false
    · simp only [hstop, Option.isNone_some, Bool.false_eq_true, if_false] at hid
      exact h.followed hwell (by simp [hstop]) id hid

/-- On a network that was built by the operations, for any duals, costs and limits, after any number
of visits: there is a course up to there, and whatever a course notes, the queue has no node twice
and agrees with the flags, live labels that were not extended stand at nodes that wait, each label
that was extended was so once and has one label for each of its extensions inside the windows, and
there are no more visits than labels that became live. A failed search has no next visit. -/
theorem isHead_of_run {network : Network Int α} (hbuilt : network.Built) {numItems : Option Int}
    {settings : PricingSettings α} (hmake : make network numItems settings = .ok search)
    (hcosts : search.arcCosts duals = .ok costs) (fuel : Nat)
    (hfine : ¬ (search.run costs fuel search.start).Failed) :
    (∃ notes, Course search costs notes ⟨.idle, search.run costs fuel search.start⟩) ∧
      ∀ notes, Course search costs notes ⟨.idle, search.run costs fuel search.start⟩ →
        IsHead search duals (search.run costs fuel search.start) notes := by
  obtain ⟨hwell, -, -⟩ := wellFormed_of_make hbuilt.wellFormed hmake
  have hreached : Reached search costs ⟨.idle, search.run costs fuel search.start⟩ :=
    moves_run fuel hfine
  exact ⟨hreached.exists_course, fun _ hcourse => hcourse.isHead hwell hcosts⟩

/-- Around a loop that is worth it each time, the third visit is broken off: its label came back to
its node, which waits again behind the sink, but not to the sink. -/
theorem isHead_of_run_plainLoop :
    ∃ (search : PathSearch Int Datum) (costs : Array Datum) (notes : Notes),
      plainLoop.Built ∧ make plainLoop none ⟨.float 1.0, .int 5, true⟩ = .ok search ∧
      search.arcCosts [.float 2.0] = .ok costs ∧
      ¬ (search.run costs 3 search.start).Failed ∧
      (search.run costs 3 search.start).hitLimit = true ∧
      (search.run costs 3 search.start).queue = [2, 1] ∧
      Course search costs notes ⟨.idle, search.run costs 3 search.start⟩ ∧
      IsHead search [.float 2.0] (search.run costs 3 search.start) notes := by
  generalize hsearch : (⟨plainLoop, 0, 2, 1, ⟨.float 1.0, .int 5, true⟩⟩ : PathSearch Int Datum) =
    search
  have hmake : make plainLoop none ⟨.float 1.0, .int 5, true⟩ = .ok search := hsearch ▸ rfl
  have hrun : (search.arcCosts [.float 2.0]).toOption.map (fun costs =>
      ((search.run costs 3 search.start).hitLimit, (search.run costs 3 search.start).queue)) =
        some (true, [2, 1]) := by
    rw [← hsearch]
    decide +kernel
  obtain ⟨costs, hcosts, hrun⟩ := Option.map_eq_some_iff.mp hrun
  simp only [Prod.mk.injEq] at hrun
  have hcosts := toOption_eq_some.mp hcosts
  have hfine : ¬ (search.run costs 3 search.start).Failed := by
    rintro ⟨cause, hcause⟩
    simp [State.hitLimit, hcause] at hrun
  obtain ⟨⟨notes, hcourse⟩, hhead⟩ := isHead_of_run built_plainLoop hmake hcosts 3 hfine
  exact ⟨search, costs, notes, built_plainLoop, hmake, hcosts, hfine, hrun.1, hrun.2, hcourse,
    hhead notes hcourse⟩

end PathSearch

end PatternCovering
