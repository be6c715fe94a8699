import PatternCovering.Proofs.PathSearch.Paths
import Mathlib.Data.Set.Finite.List
import Mathlib.Data.Set.List
import Mathlib.Data.Finset.Card

/-!
# Labels of different paths

A label is extended once and along each arc once, so that no two labels of a search spell the same
path. If the paths that arrive are bounded in length, there are therefore no more labels than there
are short lists of arcs, whatever the costs and resources are.
-/

namespace PatternCovering

namespace PathSearch

variable {α : Type} {search : PathSearch Int α} {costs : Array α}

/-- The arcs that leave a node are listed by increasing positions. -/
theorem WellFormed.pairwise_arcsFrom (costs : Array α) (hwell : search.WellFormed) (node : Nat) :
    (search.arcsFrom costs node).Pairwise fun first second => first.1.index < second.1.index := by
  rw [arcsFrom, List.pairwise_filterMap]
  refine (hwell.network.sorted_leaving node).imp ?_
  intro i j hlt first hfirst second hsecond
  split at hfirst
  · next arc cost harc hcost =>
    split at hsecond
    · next other price hother hprice =>
      rw [← Option.some.inj hfirst, ← Option.some.inj hsecond,
        hwell.network.index_eq i arc harc, hwell.network.index_eq j other hother]
      exact_mod_cast hlt
    · cases hsecond
  · cases hfirst

/-- Whether no label extends the label at hand along an arc that is still ahead. -/
def Phase.Fresh (history : List (Label Int α)) : Phase α → Prop
  | .extending _ _ id _ arcs => ∀ (other : Nat) label, history[other]? = some label →
    label.predecessor = some (id : Int) → ∀ entry ∈ arcs, label.arc ≠ some entry.1.index
  | _ => True

/-- Every label was extended along each arc at most once, and only if it is marked as extended. -/
structure Once (config : Config α) : Prop where
  extended : ∀ (other : Nat) label (previous : Nat),
    config.state.pool.history[other]? = some label →
    label.predecessor = some (previous : Int) → config.state.extended[previous]? = some true
  fresh : config.phase.Fresh config.state.pool.history
  distinct : ∀ (i j : Nat) first second, config.state.pool.history[i]? = some first →
    config.state.pool.history[j]? = some second → first.predecessor = second.predecessor →
    first.arc = second.arc → i = j

/-- There are finitely many lists of arcs of a network up to a length. -/
theorem finite_arcLists (network : Network Int α) (bound : Nat) :
    {path : List (Arc Int α) | path.length ≤ bound ∧ ∀ arc ∈ path, arc ∈ network.arcs}.Finite := by
  have harcs : Finite {arc // arc ∈ network.arcs} := by
    have hlist := network.arcs.toList.finite_toSet.to_subtype
    simpa using hlist
  refine ((List.finite_length_le {arc // arc ∈ network.arcs} bound).image
    (List.map Subtype.val)).subset ?_
  rintro path ⟨hlength, hmem⟩
  refine ⟨path.attachWith _ hmem, ?_, ?_⟩
  · simpa using hlength
  · simp

variable [Quantity α]

/-- Nothing was extended when a search starts. -/
theorem Once.start (hwell : search.WellFormed) : Once ⟨.idle, search.start⟩ := by
  have hfirst : ∀ (i : Nat) label, search.start.pool.history[i]? = some label →
      i = 0 ∧ label = search.firstLabel := by
    intro i label hlabel
    rw [history_start search hwell.source_lt, List.getElem?_singleton] at hlabel
    split at hlabel
    · next heq => exact ⟨heq, (Option.some.inj hlabel).symm⟩
    · cases hlabel
  refine ⟨fun other label previous hlabel hprevious => ?_, trivial,
    fun i j first second hi hj _ _ => (hfirst i first hi).1.trans (hfirst j second hj).1.symm⟩
  rw [(hfirst other label hlabel).2] at hprevious
  cases hprevious

/-- A created label extends a label along an arc along which it was not extended before. -/
theorem Once.grow (hwell : search.WellFormed) {state : State Int α} {node id : Nat}
    {todo : List Nat} {label : Label Int α} {arc : Arc Int α} {price : α}
    {arcs : List (Arc Int α × α)} {used : List α} {cost : α} {pool : LabelPool Int α}
    {target : Nat} {inserted : Bool}
    (h : Once ⟨.extending node todo id label ((arc, price) :: arcs), state⟩)
    (hbooks : Books search costs ⟨.extending node todo id label ((arc, price) :: arcs), state⟩)
    (g : Growth search costs state node id label arc price used cost pool target inserted) :
    Once ⟨.extending node todo id label arcs, state.grown pool target inserted⟩ := by
  obtain ⟨-, -, -, hmarked, hsuffix⟩ := hbooks.phase
  have hahead := (hwell.pairwise_arcsFrom costs node).sublist hsuffix.sublist
  rw [List.pairwise_cons] at hahead
  have hclash : ∀ (other : Nat) known, state.pool.history[other]? = some known →
      known.predecessor = some label.id → known.arc ≠ some arc.index := by
    intro other known hknown hprevious
    rw [g.id_eq] at hprevious
    exact h.fresh other known hknown hprevious (arc, price) List.mem_cons_self
  refine ⟨fun other known previous hknown hprevious => ?_,
    fun other known hknown hprevious entry hentry => ?_,
    fun i j first second hi hj hprevious harc => ?_⟩
  · simp only [State.grown_pool, State.grown_extended] at hknown ⊢
    have hflag : state.extended[previous]? = some true := by
      rcases g.history_cases hknown with hold | ⟨-, rfl⟩
      · exact h.extended other known previous hold hprevious
      · have heq : label.id = (previous : Int) := Option.some.inj hprevious
        rw [g.id_eq] at heq
        rw [← Int.ofNat_inj.mp heq]
        exact hmarked
    have hlt := (Array.getElem?_eq_some_iff.mp hflag).1
    rw [Array.getElem?_push_lt hlt]
    exact congrArg some (Array.getElem?_eq_some_iff.mp hflag).2
  · simp only [State.grown_pool] at hknown
    rcases g.history_cases hknown with hold | ⟨-, rfl⟩
    · exact h.fresh other known hold hprevious entry (List.mem_cons_of_mem _ hentry)
    · intro heq
      have hlt : arc.index < entry.1.index := hahead.1 entry hentry
      have hsame : arc.index = entry.1.index := Option.some.inj heq
      omega
  · simp only [State.grown_pool] at hi hj
    rcases g.history_cases hi with hi | ⟨rfl, rfl⟩
    · rcases g.history_cases hj with hj | ⟨rfl, rfl⟩
      · exact h.distinct i j first second hi hj hprevious harc
      · exact absurd harc (hclash i first hi hprevious)
    · rcases g.history_cases hj with hj | ⟨rfl, rfl⟩
      · exact absurd harc.symm (hclash j second hj hprevious.symm)
      · rfl

/-- A move keeps extensions apart. -/
theorem Once.move (hwell : search.WellFormed) {before after : Config α} (h : Once before)
    (hbooks : Books search costs before) (hmove : Move search costs before after) :
    Once after := by
  cases hmove with
  | pop hstop hqueue => exact ⟨h.extended, trivial, h.distinct⟩
  | skip hskip => exact ⟨h.extended, trivial, h.distinct⟩
  | @begin state node id todo label hlabel hflag hnew =>
    refine ⟨fun other known previous hknown hprevious => ?_,
      fun other known hknown hprevious entry hentry => ?_, h.distinct⟩
    · have hold := h.extended other known previous hknown hprevious
      have hlt := (Array.getElem?_eq_some_iff.mp hold).1
      simp only [Array.getElem?_setIfInBounds]
      split
      · next heq =>
        rw [if_pos (heq ▸ hlt)]
      · exact hold
    · have hold := h.extended other known id hknown hprevious
      change state.extended[id]? = some true at hold
      rw [hold] at hnew
      cases hnew
  | outside houtside =>
    exact ⟨h.extended, fun other known hknown hprevious entry hentry =>
      h.fresh other known hknown hprevious entry (List.mem_cons_of_mem _ hentry), h.distinct⟩
  | full hfull => exact ⟨h.extended, trivial, h.distinct⟩
  | grow hinside htarget hinsert =>
    exact h.grow hwell hbooks (hbooks.growth hwell hinside htarget hinsert)
  | finish => exact ⟨h.extended, trivial, h.distinct⟩
  | sweep hcheck hsweep =>
    simp only [hbooks.sweep_eq hcheck, Prod.mk.injEq] at hsweep
    obtain ⟨rfl, -⟩ := hsweep
    exact ⟨h.extended, trivial, h.distinct⟩
  | leave hcheck => exact ⟨h.extended, trivial, h.distinct⟩

/-- Extensions are kept apart at every point of a search. -/
theorem Reached.once (hwell : search.WellFormed) {config : Config α}
    (h : Reached search costs config) : Once config :=
  h.induct (Once.start hwell) fun _ _ hreached hmove honce =>
    honce.move hwell (hreached.books hwell) hmove

/-- Labels that spell the same path are the same. -/
theorem Reached.eq_of_spells (hwell : search.WellFormed) {config : Config α}
    (h : Reached search costs config) {i j : Nat} {path : List (Arc Int α)}
    (hi : Spells search costs config.state.pool.history i path)
    (hj : Spells search costs config.state.pool.history j path) : i = j := by
  have honce := h.once hwell
  induction hi generalizing j with
  | first hlabel =>
    generalize hempty : ([] : List (Arc Int α)) = path at hj
    cases hj with
    | first hother => rfl
    | next => simp at hempty
  | next hpath hlt hbefore hlabel hnode harc hprevious hindex htarget hused hwithin htotal ih =>
    generalize hwhole : _ ++ [_] = path at hj
    cases hj with
    | first hother => simp at hwhole
    | next hpath' hlt' hbefore' hlabel' hnode' harc' hprevious' hindex' =>
      obtain ⟨hinit, hlast⟩ := List.append_inj' hwhole rfl
      rw [List.cons.injEq] at hlast
      rw [← hinit] at hpath'
      have hsame := ih hpath'
      rw [← hsame] at hprevious'
      rw [← hlast.1] at hindex'
      exact honce.distinct _ _ _ _ hlabel hlabel' (hprevious.trans hprevious'.symm)
        (hindex.trans hindex'.symm)

/-- A path that arrives goes along arcs of the network. -/
theorem Arrives.mem_arcs (hwell : search.WellFormed) {path : List (Arc Int α)} {node : Nat}
    {used : List α} {cost : α} (h : Arrives search costs path node used cost) {arc : Arc Int α}
    (harc : arc ∈ path) : arc ∈ search.network.arcs := by
  induction h with
  | start => cases harc
  | step hpath hnext htarget hused hwithin htotal ih =>
    rcases List.mem_append.mp harc with harc | harc
    · exact ih harc
    · rw [List.mem_singleton.mp harc]
      exact (hwell.mem_arcs hnext).1

/-- If the paths that labels spell are bounded in length, there are no more labels than lists of arcs
up to that length. -/
theorem Reached.numCreated_le_of_spells (hwell : search.WellFormed) {config : Config α}
    (h : Reached search costs config) {bound : Nat}
    (hbound : ∀ (id : Nat) label, config.state.pool.history[id]? = some label →
      ∃ path, Spells search costs config.state.pool.history id path ∧ path.length ≤ bound) :
    config.state.pool.numCreated ≤ (finite_arcLists search.network bound).toFinset.card := by
  have hpaths : ∀ id ∈ Finset.range config.state.pool.numCreated, ∃ path,
      Spells search costs config.state.pool.history id path ∧ path.length ≤ bound := by
    intro id hid
    rw [Finset.mem_range, ← LabelPool.length_history] at hid
    exact hbound id _ (List.getElem?_eq_getElem hid)
  choose! pathOf hpathOf using hpaths
  rw [← Finset.card_range config.state.pool.numCreated]
  refine Finset.card_le_card_of_injOn pathOf (fun id hid => ?_) fun i hi j hj heq => ?_
  · obtain ⟨hspells, hlength⟩ := hpathOf id hid
    obtain ⟨node, used, cost, harrives⟩ := hspells.exists_arrives hwell
    rw [Set.Finite.coe_toFinset]
    exact ⟨hlength, fun arc harc => harrives.mem_arcs hwell harc⟩
  · have hpath := (hpathOf i hi).1
    rw [heq] at hpath
    exact h.eq_of_spells hwell hpath (hpathOf j hj).1

/-- If the paths that arrive are bounded in length, a search creates no more labels than there are
lists of arcs up to that length. -/
theorem Reached.numCreated_le (hwell : search.WellFormed) {bound : Nat}
    (hbound : ∀ path node used cost, Arrives search costs path node used cost →
      path.length ≤ bound) {config : Config α} (h : Reached search costs config) :
    config.state.pool.numCreated ≤ (finite_arcLists search.network bound).toFinset.card := by
  refine h.numCreated_le_of_spells hwell fun id label hlabel => ?_
  obtain ⟨path, hpath⟩ := h.spells hwell hlabel
  obtain ⟨node, used, cost, harrives⟩ := hpath.exists_arrives hwell
  exact ⟨path, hpath, hbound path node used cost harrives⟩

end PathSearch

end PatternCovering
