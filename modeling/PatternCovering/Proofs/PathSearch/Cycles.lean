import PatternCovering.Proofs.PathSearch.Dominance
import PatternCovering.Proofs.PathSearch.Termination

/-!
# Searches on networks whose cycles do not pay

Where going around a cycle costs nothing or more, and consumes nothing or more, a walk that comes back
to a node is no better than its part up to the first time there. That part has a label, and although
the label may have been taken out long ago, a live one that is no worse stands in for it. So a label
that closes a cycle is dominated at the moment it is created, and labels are inserted only for paths
through different nodes. Only inserted labels are extended, which bounds the length of all paths that
labels spell by the number of nodes, and a search with dominance ends by itself, however wide the
windows are.
-/

namespace PatternCovering

namespace Network

variable {network : Network Int Rat} {duals : List Rat}

/-- Whether no closed walk has a negative cost under duals. -/
def NoGain (network : Network Int Rat) (duals : List Rat) : Prop :=
  ∀ node walk, network.IsWalk node walk node → 0 ≤ adjustedCost duals walk

/-- The potential at the end of a walk is at most the one at its start and the cost of the walk, if
this is so for each arc. -/
theorem IsWalk.potential_le {potential : Int → Rat}
    (h : ∀ arc ∈ network.arcs,
      potential arc.target ≤ potential arc.source + arc.adjustedCost duals)
    {first last : Int} {walk : List (Arc Int Rat)} (hwalk : network.IsWalk first walk last) :
    potential last ≤ potential first + adjustedCost duals walk := by
  induction walk using List.reverseRecOn generalizing last with
  | nil =>
    obtain rfl : first = last := hwalk
    simp
  | append_singleton walk arc ih =>
    obtain ⟨hpart, harc, rfl⟩ := isWalk_concat.mp hwalk
    have hlast := h arc harc
    have hrest := ih hpart
    rw [adjustedCost_concat]
    linarith

/-- No closed walk pays if there is a potential that no arc undercuts. -/
theorem noGain_of_potential (potential : Int → Rat)
    (h : ∀ arc ∈ network.arcs,
      potential arc.target ≤ potential arc.source + arc.adjustedCost duals) :
    network.NoGain duals := by
  intro node walk hwalk
  have hround := hwalk.potential_le h
  linarith

end Network

namespace PathSearch

variable {search : PathSearch Int Rat} {costs : Array Rat} {duals : List Rat}

/-- Whether a path comes through no node twice. -/
def IsSimple (search : PathSearch Int Rat) (path : List (Arc Int Rat)) : Prop :=
  ((search.source : Int) :: path.map (·.target)).Nodup

/-- Whether a label was inserted on the way to a point of a search: it was live at some point before,
whatever became of it since. -/
def WasInserted (search : PathSearch Int Rat) (costs : Array Rat) (config : Config Rat) (id : Nat) :
    Prop :=
  ∃ earlier, Reached search costs earlier ∧ Moves search costs earlier config ∧
    ∃ node, id ∈ earlier.state.pool.liveAt node

/-- A path through different nodes has fewer arcs than there are nodes. -/
theorem WellFormed.length_lt_of_isSimple (hwell : search.WellFormed) {path : List (Arc Int Rat)}
    (harcs : ∀ arc ∈ path, arc ∈ search.network.arcs) (h : search.IsSimple path) :
    path.length < search.network.numNodes := by
  have hsource := hwell.source_lt
  exact hwell.network.length_lt_of_nodup ⟨Int.natCast_nonneg _, by omega⟩ harcs h

/-- A walk that comes back to a node is no better than its part up to there. -/
theorem noWorse_of_cycle {network : Network Int Rat}
    (hconsumption : ∀ arc ∈ network.arcs, ∀ amount ∈ arc.consumption, 0 ≤ amount)
    (hgain : network.NoGain duals) {node : Int} {cycle : List (Arc Int Rat)}
    (hcycle : network.IsWalk node cycle node) (walk : List (Arc Int Rat)) :
    NoWorse ((List.range network.numResources).map (Network.used walk),
        Network.adjustedCost duals walk)
      ((List.range network.numResources).map (Network.used (walk ++ cycle)),
        Network.adjustedCost duals (walk ++ cycle)) := by
  refine ⟨?_, forall₂_le_range.mpr fun resource _ => ?_⟩
  · have hcost := hgain node cycle hcycle
    simp only [Network.adjustedCost_append]
    linarith
  · have hused : 0 ≤ Network.used cycle resource := Network.used_nonneg fun arc harc =>
      Network.consumption_nonneg hconsumption (hcycle.mem_arcs harc) resource
    rw [Network.used_append]
    linarith

/-- Whether a label is kept at a point of a search: it is live, still to be looked at, or extended. -/
def Kept (config : Config Rat) (id : Nat) : Prop :=
  (∃ node, id ∈ config.state.pool.liveAt node ∨ config.phase.Awaits node id) ∨
    config.state.extended[id]? = some true

/-- Whether the labels that are kept spell paths through different nodes. -/
def Simple (search : PathSearch Int Rat) (costs : Array Rat) (config : Config Rat) : Prop :=
  ∀ id, Kept config id → ∃ path, Spells search costs config.state.pool.history id path ∧
    search.IsSimple path

/-- The empty path of the first label comes through one node. -/
theorem Simple.start (hwell : search.WellFormed) : Simple search costs ⟨.idle, search.start⟩ := by
  rintro id (⟨node, hlive | hawaits⟩ | hflag)
  · change id ∈ search.start.pool.liveAt node at hlive
    rw [liveAt_start search hwell.source_lt] at hlive
    split at hlive
    · obtain rfl : id = 0 := by simpa using hlive
      exact ⟨[], .first (by simp [history_start search hwell.source_lt]), List.nodup_singleton _⟩
    · simp at hlive
  · cases hawaits
  · exact absurd hflag (extended_start_ne search id)

/-- A move that leaves the labels as they are keeps what is simple, as long as every label that is kept
after it was so before. -/
theorem Simple.of_same {before after : Config Rat} (h : Simple search costs before)
    (hpool : after.state.pool = before.state.pool)
    (hkept : ∀ id, Kept after id → Kept before id) : Simple search costs after :=
  fun id hid => hpool ▸ h id (hkept id hid)

section Closing

variable (hwell : search.WellFormed) (hcheck : search.settings.useDominance = true)
  (hconsumption : ∀ arc ∈ search.network.arcs, ∀ amount ∈ arc.consumption, 0 ≤ amount)
  (hgain : search.network.NoGain duals)
  (hcosts : costs = search.network.arcs.map (Arc.adjustedCost duals))

include hwell hcheck hconsumption hgain hcosts

variable {phase : Phase Rat} {state : State Int Rat} {node id target : Nat} {label : Label Int Rat}
  {arc : Arc Int Rat} {price : Rat} {used : List Rat} {cost : Rat} {pool : LabelPool Int Rat}
  {inserted : Bool}

/-- A label that is inserted does not close a cycle. -/
theorem Growth.target_notMem
    (g : Growth search costs state node id label arc price used cost pool target inserted)
    (hreached : Reached search costs ⟨phase, state⟩) (hinserted : inserted = true)
    {path : List (Arc Int Rat)} (hpath : Spells search costs state.pool.history id path) :
    arc.target ∉ (search.source : Int) :: path.map (·.target) := by
  subst hcosts
  intro hmem
  have hbooks := hreached.books hwell
  obtain ⟨hwalk, -, hnew, hbill⟩ := hwell.arrives_iff.mp (g.arrives hpath)
  obtain ⟨hwalk, harc, -⟩ := Network.isWalk_concat.mp hwalk
  obtain ⟨first, rest, rfl, hfirst, hrest⟩ := hwalk.exists_split hmem
  -- the part up to the first time there has a label, for which a live one stands in
  obtain ⟨previous, hprevious⟩ := hpath.exists_of_isPrefix (List.prefix_append first rest)
  obtain ⟨known, hknown⟩ : ∃ known, state.pool.history[previous]? = some known :=
    ⟨_, List.getElem?_eq_getElem hprevious.lt_length⟩
  obtain ⟨place, hplace⟩ := hprevious.exists_node hwell hknown
  obtain ⟨hpart, -, hspent, hcost⟩ := hwell.arrives_iff.mp (hprevious.arrives hknown hplace)
  obtain rfl : place = target :=
    Int.ofNat_inj.mp ((hpart.unique hfirst).trans g.target_eq)
  obtain ⟨other, hother, live, hlive, hnoWorse⟩ :=
    hreached.met hwell (hwell.takesPlace_noWorse duals) hknown hplace
  have hcycle : search.network.IsWalk arc.target (rest ++ [arc]) arc.target :=
    Network.isWalk_concat.mpr ⟨hrest, harc, rfl⟩
  have hbetter := noWorse_of_cycle hconsumption hgain hcycle first
  rw [← List.append_assoc, ← hspent, ← hcost, ← hnew, ← hbill] at hbetter
  -- so that the live label dominates the created one
  obtain ⟨answer, hanswer, hiff⟩ := Label.dominates_rat live (newLabel state.pool label arc used cost)
  have hdominates : NoWorse (live.resources, live.cost) (used, cost) := hnoWorse.trans hbetter
  rw [g.not_dominated hbooks hcheck hinserted hother hlive, Except.ok.injEq] at hanswer
  exact Bool.false_ne_true (hanswer.trans ((hiff hdominates.2.length_eq).mpr hdominates))

/-- A label that is created and inserted spells a path through different nodes, if the label that it
extends does. -/
theorem Growth.exists_isSimple
    (g : Growth search costs state node id label arc price used cost pool target inserted)
    (hreached : Reached search costs ⟨phase, state⟩) (hinserted : inserted = true)
    {path : List (Arc Int Rat)} (hpath : Spells search costs state.pool.history id path)
    (hsimple : search.IsSimple path) :
    ∃ path, Spells search costs pool.history state.pool.numCreated path ∧ search.IsSimple path := by
  refine ⟨path ++ [arc], g.spells hpath, ?_⟩
  have hfresh := g.target_notMem hwell hcheck hconsumption hgain hcosts hreached hinserted hpath
  rw [IsSimple, List.map_append, ← List.cons_append, List.nodup_append]
  refine ⟨hsimple, List.nodup_singleton _, fun first hfirst second hsecond heq => hfresh ?_⟩
  obtain rfl : first = arc.target := heq.trans (List.mem_singleton.mp hsecond)
  exact hfirst

/-- A move keeps the paths of the labels that are kept simple. -/
theorem Simple.move {before after : Config Rat} (h : Simple search costs before)
    (hreached : Reached search costs before) (hmove : Move search costs before after) :
    Simple search costs after := by
  have hbooks := hreached.books hwell
  cases hmove with
  | pop hstop hqueue =>
    refine h.of_same rfl ?_
    rintro id (⟨place, hlive | ⟨-, hmem⟩⟩ | hflag)
    · exact Or.inl ⟨place, Or.inl hlive⟩
    · exact Or.inl ⟨_, Or.inl (Array.mem_toList_iff.mp hmem)⟩
    · exact Or.inr hflag
  | skip hskip =>
    refine h.of_same rfl ?_
    rintro id (⟨place, hlive | ⟨rfl, hmem⟩⟩ | hflag)
    · exact Or.inl ⟨place, Or.inl hlive⟩
    · exact Or.inl ⟨_, Or.inr ⟨rfl, List.mem_cons_of_mem _ hmem⟩⟩
    · exact Or.inr hflag
  | @begin state node id todo label hlabel hflag hnew =>
    refine h.of_same rfl ?_
    rintro other (⟨place, hlive | ⟨rfl, hmem⟩⟩ | hextended)
    · exact Or.inl ⟨place, Or.inl hlive⟩
    · exact Or.inl ⟨_, Or.inr ⟨rfl, List.mem_cons_of_mem _ hmem⟩⟩
    · -- the label that begins to be extended was still to be looked at
      simp only [Array.getElem?_setIfInBounds] at hextended
      split at hextended
      · next heq => exact Or.inl ⟨node, Or.inr ⟨rfl, heq ▸ List.mem_cons_self⟩⟩
      · exact Or.inr hextended
  | outside houtside => exact h.of_same rfl fun _ hkept => hkept
  | full hfull =>
    refine h.of_same rfl ?_
    rintro id (⟨place, hlive | ⟨-, hmem⟩⟩ | hflag)
    · exact Or.inl ⟨place, Or.inl hlive⟩
    · cases hmem
    · exact Or.inr hflag
  | @grow state node id todo label arc price arcs used cost pool target inserted hinside htarget
      hinsert =>
    have g := hbooks.growth hwell hinside htarget hinsert
    intro other hkept
    have hcases : Kept ⟨.extending node todo id label ((arc, price) :: arcs), state⟩ other ∨
        (other = state.pool.numCreated ∧ inserted = true) := by
      rcases hkept with ⟨place, hlive | hawaits⟩ | hflag
      · simp only [State.grown_pool] at hlive
        exact (g.live_cases hbooks hlive).imp (fun hlive => Or.inl ⟨place, Or.inl hlive⟩) And.right
      · exact Or.inl (Or.inl ⟨place, Or.inr hawaits⟩)
      · simp only [State.grown_extended, Array.getElem?_push] at hflag
        split at hflag
        · cases hflag
        · exact Or.inl (Or.inr hflag)
    simp only [State.grown_pool]
    rcases hcases with hkept | ⟨rfl, hinserted⟩
    · obtain ⟨path, hpath, hsimple⟩ := h other hkept
      exact ⟨path, hpath.mono ⟨_, g.history_eq.symm⟩, hsimple⟩
    · obtain ⟨path, hpath, hsimple⟩ := h id (Or.inr hbooks.phase.2.2.2.1)
      exact g.exists_isSimple hwell hcheck hconsumption hgain hcosts hreached hinserted hpath hsimple
  | finish => exact h.of_same rfl fun _ hkept => hkept
  | sweep _ hsweep =>
    simp only [hbooks.sweep_eq hcheck, Prod.mk.injEq] at hsweep
    obtain ⟨rfl, -⟩ := hsweep
    refine h.of_same rfl ?_
    rintro id (⟨place, hlive | hawaits⟩ | hflag)
    · exact Or.inl ⟨place, Or.inl hlive⟩
    · cases hawaits
    · exact Or.inr hflag
  | leave hunchecked =>
    rw [hcheck] at hunchecked
    cases hunchecked

/-- Labels that are kept spell paths through different nodes at every point of a search. -/
theorem Reached.simple {config : Config Rat} (h : Reached search costs config) :
    Simple search costs config :=
  h.induct (Simple.start hwell) fun _ _ hreached hmove hsimple =>
    hsimple.move hwell hcheck hconsumption hgain hcosts hreached hmove

/-- Every label spells a path with no more arcs than there are nodes. -/
theorem Reached.exists_spells_le {config : Config Rat} (h : Reached search costs config) {id : Nat}
    {label : Label Int Rat} (hlabel : config.state.pool.history[id]? = some label) :
    ∃ path, Spells search costs config.state.pool.history id path ∧
      path.length ≤ search.network.numNodes := by
  obtain ⟨path, hpath⟩ := h.spells hwell hlabel
  cases hpath with
  | first hfirst => exact ⟨[], .first hfirst, Nat.zero_le _⟩
  | next _ hlt hbefore hknown hnode harc hpredecessor hindex htarget hused hwithin htotal =>
    -- the label that it extends is marked as extended, and so its path is simple
    have hextended := (h.once hwell).extended _ _ _ hknown hpredecessor
    obtain ⟨path, hpath, hsimple⟩ :=
      h.simple hwell hcheck hconsumption hgain hcosts _ (Or.inr hextended)
    obtain ⟨place, spent, bill, harrives⟩ := hpath.exists_arrives hwell
    have hlength := hwell.length_lt_of_isSimple (fun _ => harrives.mem_arcs hwell) hsimple
    refine ⟨_, hpath.next hlt hbefore hknown hnode harc hpredecessor hindex htarget hused hwithin
      htotal, ?_⟩
    rw [List.length_append, List.length_singleton]
    exact hlength

end Closing

/-- What it means that a search ends by itself and follows no cycle: it makes an offer, always the same
one, when it is given enough visits, and every label that was inserted on the way to any of its points
is read back as nodes that are all different. -/
structure EndsWithoutCycles (search : PathSearch Int Rat) (duals : List Rat) (limit : Nat) : Prop where
  offers : ∃ offer, ∀ fuel, limit ≤ fuel → (search.price fuel duals).2 = .ok offer
  nodup : ∀ (costs : Array Rat) (config : Config Rat) (id : Nat) (label : Label Int Rat),
    search.arcCosts duals = .ok costs → WasInserted search costs config id →
    config.state.pool.arena[id]? = some label →
    ∃ nodes, config.state.pool.nodePath label = .ok nodes ∧ nodes.Nodup

/-- On a network that was built by the operations and has no negative consumption, a search with
dominance and without a limit on labels ends under all duals for which no closed walk pays, whatever
the windows are, and follows no cycle. How many visits are enough does not depend on the duals. -/
theorem endsWithoutCycles_of_noGain {network : Network Int Rat} (hbuilt : network.Built)
    (hconsumption : ∀ arc ∈ network.arcs, ∀ amount ∈ arc.consumption, 0 ≤ amount)
    {numItems : Option Int} {settings : PricingSettings Rat} (hcheck : settings.useDominance = true)
    (hlimit : settings.maxLabels ≤ 0) (hmake : make network numItems settings = .ok search) :
    ∃ limit, ∀ duals : List Rat, (duals.length : Int) = search.numItems → network.NoGain duals →
      EndsWithoutCycles search duals limit := by
  obtain ⟨hwell, rfl, rfl⟩ := wellFormed_of_make hbuilt.wellFormed hmake
  refine ⟨(finite_arcLists search.network search.network.numNodes).toFinset.card,
    fun duals hlength hgain => ⟨?_, ?_⟩⟩
  · refine exists_price_of_reached hwell hlimit hlength fun config h => ?_
    exact h.numCreated_le_of_spells hwell fun id label hlabel =>
      h.exists_spells_le hwell hcheck hconsumption hgain rfl hlabel
  · rintro costs config id label hcosts ⟨earlier, hearlier, hmoves, node, hlive⟩ hlabel
    rw [hwell.arcCosts_eq hlength, Except.ok.injEq] at hcosts
    obtain ⟨path, hpath, hsimple⟩ := hearlier.simple hwell hcheck hconsumption hgain hcosts.symm id
      (Or.inl ⟨node, Or.inl hlive⟩)
    have hlater := hpath.mono (hearlier.history_isPrefix hwell hmoves)
    exact ⟨_, hlater.nodePath_eq hlabel, hsimple⟩

/-- A cycle that consumes nothing and costs nothing under the duals, in a window without an upper
bound: it is gone around once, and the label that comes back is turned away. -/
theorem endsWithoutCycles_freeCycle :
    ∃ (network : Network Int Rat) (search : PathSearch Int Rat) (limit : Nat)
      (there back : Arc Int Rat) (offer : Offer Rat) (pool : LabelPool Int Rat),
      network.Built ∧ (∀ arc ∈ network.arcs, ∀ amount ∈ arc.consumption, 0 ≤ amount) ∧
      (∀ window ∈ network.windows, window.upper = none) ∧ network.IsWalk 1 [there, back] 1 ∧
      there.consumption = [0] ∧ back.consumption = [0] ∧
      Network.adjustedCost [2] [there, back] = 0 ∧ network.NoGain [2] ∧
      make network none ⟨1, 0, true⟩ = .ok search ∧
      (([2] : List Rat).length : Int) = search.numItems ∧
      (search.priceWithLabels 9 [2]).2 = .ok (offer, pool) ∧ pool.numCreated = 5 ∧
      pool.numDominated = 1 ∧ EndsWithoutCycles search [2] limit := by
  generalize hassembled : Network.assemble [⟨some 0, none, .null⟩] 4 0 2
    [(0, 1, 1, [0], none), (1, 3, 0, [0], some 0), (3, 1, 2, [0], none), (1, 2, 0, [0], none)] =
      assembled
  have hnetwork : (assembled.toOption.all fun network =>
      network.arcs.all (·.consumption.all (0 ≤ ·)) && network.windows.all (·.upper = none) &&
        network.arcs.all fun arc => (if arc.target = 3 then (-2 : Rat) else 0) ≤
          (if arc.source = 3 then -2 else 0) + arc.adjustedCost [2]) = true := by
    rw [← hassembled]
    decide +kernel
  have hcycle : (assembled.toOption.bind fun network => network.arcs[1]?.bind fun there =>
      network.arcs[2]?.map fun back => ((there.source, there.target, there.consumption),
        (back.source, back.target, back.consumption), Network.adjustedCost [2] [there, back])) =
      some ((1, 3, [0]), (3, 1, [0]), 0) := by
    rw [← hassembled]
    decide +kernel
  have hrun : (assembled.toOption.bind fun network =>
      (make network none ⟨1, 0, true⟩).toOption.bind fun search =>
        (search.priceWithLabels 9 [2]).2.toOption.map fun (_, pool) =>
          (search.numItems, pool.numCreated, pool.numDominated)) = some (1, 5, 1) := by
    rw [← hassembled]
    decide +kernel
  obtain ⟨network, hbuilt, hrun⟩ := Option.bind_eq_some_iff.mp hrun
  obtain ⟨search, hmake, hrun⟩ := Option.bind_eq_some_iff.mp hrun
  obtain ⟨⟨offer, pool⟩, hprice, hrun⟩ := Option.map_eq_some_iff.mp hrun
  simp only [Prod.mk.injEq] at hrun
  obtain ⟨hitems, hcreated, hdominated⟩ := hrun
  rw [toOption_eq_some] at hbuilt hmake hprice
  subst hbuilt
  simp only [Except.toOption, Option.bind_some, Option.all_some, Bool.and_eq_true,
    Array.all_eq_true_iff_forall_mem, List.all_eq_true, decide_eq_true_eq] at hnetwork hcycle
  obtain ⟨⟨hconsumption, hwindows⟩, hpotential⟩ := hnetwork
  obtain ⟨there, hthere, hcycle⟩ := Option.bind_eq_some_iff.mp hcycle
  obtain ⟨back, hback, hcycle⟩ := Option.map_eq_some_iff.mp hcycle
  simp only [Prod.mk.injEq] at hcycle
  obtain ⟨⟨hsource, htarget, hfree⟩, ⟨hsource', htarget', hfree'⟩, hcost⟩ := hcycle
  have hgain := Network.noGain_of_potential (fun node => if node = 3 then -2 else 0) hpotential
  have hbuilt := Network.built_of_assemble hassembled
  obtain ⟨limit, hends⟩ := endsWithoutCycles_of_noGain hbuilt hconsumption rfl (le_refl 0) hmake
  exact ⟨network, search, limit, there, back, offer, pool, hbuilt, hconsumption, hwindows,
    ⟨Array.mem_of_getElem? hthere, hsource, Array.mem_of_getElem? hback,
      hsource'.trans htarget.symm, htarget'⟩, hfree, hfree', hcost, hgain, hmake, hitems.symm, hprice,
    hcreated, hdominated, hends [2] hitems.symm hgain⟩

end PathSearch

end PatternCovering
