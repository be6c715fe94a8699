import PatternCovering.Proofs.PathSearch.Paths
import PatternCovering.Proofs.PathSearch.Worklist

/-!
# What a finished search has covered

An extended label follows the arcs of its node one after the other, and wherever it stays inside the
windows a label is created. A live label may stand in for one that was created, or for a path that the
search does not follow itself. What standing in means is left open: it is any relation between totals
that holds where one label dominates another one at its node, and, for paths, that an arc carries on
from the two paths to their extensions. At every point of a search the labels that were created are
covered by live ones, and when the search is finished every path is.

Without dominance, totals have to be equal, and nothing is assumed about costs and resources.
-/

namespace PatternCovering

namespace PathSearch

variable {α : Type} [Quantity α] {search : PathSearch Int α} {costs : Array α}

/-- What a relation between totals needs so that one path can stand in for another one. -/
structure StandsIn (search : PathSearch Int α) (costs : Array α)
    (R : List α × α → List α × α → Prop) : Prop where
  refl : ∀ totals, R totals totals
  trans : ∀ first second third, R first second → R second third → R first third
  dominates : search.settings.useDominance = true →
    ∀ (label other : Label Int α) (node : Nat) (path detour : List (Arc Int α)),
      Arrives search costs path node label.resources label.cost →
      Arrives search costs detour node other.resources other.cost →
      label.dominates other = .ok true → R (label.resources, label.cost) (other.resources, other.cost)
  step : ∀ (path detour : List (Arc Int α)) (node : Nat) (used spent more : List α)
    (cost bill price total : α) (arc : Arc Int α),
      Arrives search costs path node used cost → Arrives search costs detour node spent bill →
      R (used, cost) (spent, bill) → (arc, price) ∈ search.arcsFrom costs node →
      extendResources spent arc.consumption = .ok more →
      Window.containsAll search.network.windows more = .ok true →
      Quantity.add? bill price = .ok total →
      ∃ less sum, extendResources used arc.consumption = .ok less ∧
        Window.containsAll search.network.windows less = .ok true ∧
        Quantity.add? cost price = .ok sum ∧ R (less, sum) (more, total)

/-- Without dominance, a path stands in only for paths of the same totals. -/
theorem standsIn_eq (h : search.settings.useDominance = false) : StandsIn search costs Eq where
  refl _ := rfl
  trans _ _ _ := Eq.trans
  dominates hcheck := by simp [h] at hcheck
  step := by
    intro path detour node used spent more cost bill price total arc _ _ heq _ hmore hwithin htotal
    simp only [Prod.mk.injEq] at heq
    obtain ⟨rfl, rfl⟩ := heq
    exact ⟨more, total, hmore, hwithin, htotal, rfl⟩

/-- What a relation between totals needs so that a label can take the place of one that it
dominates. -/
structure TakesPlace (search : PathSearch Int α) (costs : Array α)
    (R : List α × α → List α × α → Prop) : Prop where
  refl : ∀ totals, R totals totals
  trans : ∀ first second third, R first second → R second third → R first third
  dominates : search.settings.useDominance = true →
    ∀ (label other : Label Int α) (node : Nat) (path detour : List (Arc Int α)),
      Arrives search costs path node label.resources label.cost →
      Arrives search costs detour node other.resources other.cost →
      label.dominates other = .ok true → R (label.resources, label.cost) (other.resources, other.cost)

variable {R : List α × α → List α × α → Prop}

/-- A label can take the place of one that it dominates where paths stand in for one another. -/
theorem StandsIn.takesPlace (h : StandsIn search costs R) : TakesPlace search costs R :=
  ⟨h.refl, h.trans, h.dominates⟩

/-- Whether a live label at a node stands in for some totals. -/
def Met (R : List α × α → List α × α → Prop) (pool : LabelPool Int α) (node : Nat)
    (totals : List α × α) : Prop :=
  ∃ id ∈ pool.liveAt node, ∃ label, pool.history[id]? = some label ∧
    R (label.resources, label.cost) totals

section Growth

variable {phase : Phase α} {state : State Int α} {node id target : Nat} {label : Label Int α}
  {arc : Arc Int α} {price : α} {used : List α} {cost : α} {pool : LabelPool Int α}
  {inserted : Bool}

/-- The path of a created label arrives with its totals. -/
theorem Growth.arrives
    (g : Growth search costs state node id label arc price used cost pool target inserted)
    {path : List (Arc Int α)} (hpath : Spells search costs state.pool.history id path) :
    Arrives search costs (path ++ [arc]) target used cost :=
  Arrives.step (hpath.arrives g.label_eq g.node_eq) g.mem_arcs g.target_eq g.resources g.within
    g.total

/-- The totals of a created label are covered, by itself or by the label that dominates it. -/
theorem Growth.met
    (g : Growth search costs state node id label arc price used cost pool target inserted)
    (hR : TakesPlace search costs R) (hbooks : Books search costs ⟨phase, state⟩)
    (hspells : ∀ (id : Nat) label, state.pool.history[id]? = some label →
      ∃ path, Spells search costs state.pool.history id path) :
    Met R pool target (used, cost) := by
  rcases g.created_cases hbooks with ⟨-, hlive⟩ | ⟨-, hcheck, hsame, other, hother, known, hknown,
    hdom⟩
  · exact ⟨_, hlive, _, g.getElem?_numCreated, hR.refl _⟩
  · refine ⟨other, (hsame target).symm ▸ hother, known, g.getElem?_history hknown, ?_⟩
    obtain ⟨path, hpath⟩ := hspells id _ g.label_eq
    obtain ⟨detour, hdetour⟩ := hspells other known hknown
    obtain ⟨same, hsameLabel, hat⟩ := hbooks.standsAt hother
    rw [hknown, Option.some.injEq] at hsameLabel
    subst hsameLabel
    exact hR.dominates hcheck known (newLabel state.pool label arc used cost) target detour
      (path ++ [arc]) (hdetour.arrives hknown hat) (g.arrives hpath) hdom

/-- What was covered stays so when a label is created. -/
theorem Met.grow
    (g : Growth search costs state node id label arc price used cost pool target inserted)
    (hR : TakesPlace search costs R) (hbooks : Books search costs ⟨phase, state⟩)
    (hspells : ∀ (id : Nat) label, state.pool.history[id]? = some label →
      ∃ path, Spells search costs state.pool.history id path)
    {place : Nat} {totals : List α × α} (h : Met R state.pool place totals) :
    Met R pool place totals := by
  obtain ⟨other, hother, known, hknown, hstands⟩ := h
  rcases g.live_or_dominated hbooks hknown hother with hlive | ⟨hcheck, hinserted, rfl, hdom⟩
  · exact ⟨other, hlive, known, g.getElem?_history hknown, hstands⟩
  · obtain ⟨path, hpath⟩ := hspells id _ g.label_eq
    obtain ⟨detour, hdetour⟩ := hspells other known hknown
    obtain ⟨same, hsameLabel, hat⟩ := hbooks.standsAt hother
    rw [hknown, Option.some.injEq] at hsameLabel
    subst hsameLabel
    have hnew := hR.dominates hcheck (newLabel state.pool label arc used cost) known place
      (path ++ [arc]) detour (g.arrives hpath) (hdetour.arrives hknown hat) hdom
    rcases g.created_cases hbooks with ⟨-, hlive⟩ | ⟨hturned, -⟩
    · exact ⟨_, hlive, _, g.getElem?_numCreated, hR.trans _ _ _ hnew hstands⟩
    · rw [hinserted] at hturned
      cases hturned

end Growth

/-- At every point of a search a live label covers each label that was created. -/
theorem Reached.met (hwell : search.WellFormed) (hR : TakesPlace search costs R) {config : Config α}
    (h : Reached search costs config) {id node : Nat} {label : Label Int α}
    (hlabel : config.state.pool.history[id]? = some label) (hnode : label.node = (node : Int)) :
    Met R config.state.pool node (label.resources, label.cost) := by
  revert id node label
  refine h.induct (P := fun config => ∀ {id node : Nat} {label : Label Int α},
    config.state.pool.history[id]? = some label → label.node = (node : Int) →
      Met R config.state.pool node (label.resources, label.cost)) ?_ ?_
  · intro id node label hlabel hnode
    change search.start.pool.history[id]? = some label at hlabel
    rw [history_start search hwell.source_lt, List.getElem?_singleton] at hlabel
    split at hlabel
    · obtain rfl := Option.some.inj hlabel
      obtain rfl : search.source = node := Int.ofNat_inj.mp hnode
      refine ⟨0, ?_, search.firstLabel, ?_, hR.refl _⟩
      · simp [liveAt_start search hwell.source_lt]
      · simp [history_start search hwell.source_lt]
    · cases hlabel
  · intro before after hreached hmove ih id node label hlabel hnode
    have hbooks := hreached.books hwell
    have hspells : ∀ (id : Nat) label, before.state.pool.history[id]? = some label →
        ∃ path, Spells search costs before.state.pool.history id path :=
      fun _ _ hknown => hreached.spells hwell hknown
    rcases hbooks.pool_cases hwell hmove with hsame |
      ⟨place, todo, previous, extended, arc, price, arcs, used, cost, target, inserted, -, -, -, g⟩
    · rw [hsame] at hlabel ⊢
      exact ih hlabel hnode
    · rcases g.history_cases hlabel with hold | ⟨rfl, rfl⟩
      · exact (ih hold hnode).grow g hR hbooks hspells
      · obtain rfl : target = node := Int.ofNat_inj.mp (g.target_eq.symm.trans hnode)
        exact g.met hR hbooks hspells

section Following

/-- Whether an arc is still to be followed by a label. -/
def Phase.Ahead (id : Nat) (arc : Arc Int α × α) : Phase α → Prop
  | .extending _ _ other _ arcs => other = id ∧ arc ∈ arcs
  | _ => False

/-- Whether a history has a label that extends the one under an identifier along an arc, with the
given resources. -/
def HasExtension (history : List (Label Int α)) (id : Nat) (label : Label Int α) (arc : Arc Int α)
    (price : α) (more : List α) : Prop :=
  ∃ (other : Nat) (next : Label Int α), id < other ∧ history[other]? = some next ∧
    next.predecessor = some (id : Int) ∧ next.arc = some arc.index ∧ next.node = arc.target ∧
    next.resources = more ∧ Quantity.add? label.cost price = .ok next.cost

/-- A label has its extensions as long as the history grows. -/
theorem HasExtension.mono {history grown : List (Label Int α)} {id : Nat} {label : Label Int α}
    {arc : Arc Int α} {price : α} {more : List α} (h : HasExtension history id label arc price more)
    (hinitial : history <+: grown) : HasExtension grown id label arc price more := by
  obtain ⟨other, next, hlt, hnext, hrest⟩ := h
  exact ⟨other, next, hlt, getElem?_of_isPrefix hinitial hnext, hrest⟩

/-- What has been followed at a point of a search: as long as the search was not stopped, an extended
label has an extension along every arc that lies behind it and leaves no window. -/
def Follows (search : PathSearch Int α) (costs : Array α) (config : Config α) : Prop :=
  config.state.stop = none → ∀ (id : Nat) label (node : Nat) arc price more,
    config.state.pool.history[id]? = some label → label.node = (node : Int) →
    config.state.extended[id]? = some true → (arc, price) ∈ search.arcsFrom costs node →
    ¬ config.phase.Ahead id (arc, price) →
    extendResources label.resources arc.consumption = .ok more →
    Window.containsAll search.network.windows more = .ok true →
    HasExtension config.state.pool.history id label arc price more

/-- Nothing is to be followed when a search starts. -/
theorem Follows.start : Follows search costs ⟨.idle, search.start⟩ := by
  intro _ id label node arc price more _ _ hextended
  exact absurd hextended (extended_start_ne search id)

/-- A move that leaves the labels as they are keeps what has been followed, as long as every label that
is extended after it, and every arc that lies behind it then, were so before. -/
theorem Follows.of_same {before after : Config α} (h : Follows search costs before)
    (hpool : after.state.pool = before.state.pool)
    (hstop : after.state.stop = none → before.state.stop = none)
    (hextended : ∀ (id : Nat) label (node : Nat) arc price more,
      before.state.pool.history[id]? = some label → label.node = (node : Int) →
      (arc, price) ∈ search.arcsFrom costs node → after.state.extended[id]? = some true →
      ¬ after.phase.Ahead id (arc, price) →
      extendResources label.resources arc.consumption = .ok more →
      Window.containsAll search.network.windows more = .ok true →
      before.state.extended[id]? = some true ∧ ¬ before.phase.Ahead id (arc, price)) :
    Follows search costs after := by
  intro hnone id label node arc price more hlabel hnode hflag harc hahead hmore hwithin
  rw [hpool] at hlabel ⊢
  obtain ⟨hold, hbehind⟩ := hextended id label node arc price more hlabel hnode harc hflag hahead
    hmore hwithin
  exact h (hstop hnone) id label node arc price more hlabel hnode hold harc hbehind hmore hwithin

/-- A label that is created is the extension along the arc that was ahead. -/
theorem Follows.grow {state : State Int α} {node id target : Nat} {todo : List Nat}
    {label : Label Int α} {arc : Arc Int α} {price : α} {arcs : List (Arc Int α × α)}
    {used : List α} {cost : α} {pool : LabelPool Int α} {inserted : Bool}
    (h : Follows search costs ⟨.extending node todo id label ((arc, price) :: arcs), state⟩)
    (hbooks : Books search costs ⟨.extending node todo id label ((arc, price) :: arcs), state⟩)
    (g : Growth search costs state node id label arc price used cost pool target inserted) :
    Follows search costs
      ⟨.extending node todo id label arcs, state.grown pool target inserted⟩ := by
  intro hstop other known place next toll more hknown hplace hextended harc hahead hmore hwithin
  simp only [State.grown_pool, State.grown_extended, State.grown_stop] at *
  have hold : state.pool.history[other]? = some known := by
    rcases g.history_cases hknown with hold | ⟨rfl, -⟩
    · exact hold
    · rw [← hbooks.size_extended] at hextended
      simp at hextended
  have hlt : other < state.pool.numCreated := by
    have hsmall := (List.getElem?_eq_some_iff.mp hold).1
    rwa [LabelPool.length_history] at hsmall
  have hsize : other < state.extended.size := hbooks.size_extended.symm ▸ hlt
  rw [Array.getElem?_push_lt hsize, ← Array.getElem?_eq_getElem hsize] at hextended
  by_cases hhead : other = id ∧ (next, toll) = (arc, price)
  · obtain ⟨rfl, heq⟩ := hhead
    simp only [Prod.mk.injEq] at heq
    obtain ⟨rfl, rfl⟩ := heq
    rw [g.label_eq, Option.some.injEq] at hold
    subst hold
    exact ⟨state.pool.numCreated, _, hlt, g.getElem?_numCreated, congrArg some g.id_eq, rfl, rfl,
      Except.ok.inj (g.resources.symm.trans hmore), g.total⟩
  · refine (h hstop other known place next toll more hold hplace hextended harc ?_ hmore
      hwithin).mono ⟨_, g.history_eq.symm⟩
    rintro ⟨rfl, hmem⟩
    rcases List.mem_cons.mp hmem with heq | hmem
    · exact hhead ⟨rfl, heq⟩
    · exact hahead ⟨rfl, hmem⟩

/-- A move keeps what has been followed. -/
theorem Follows.move (hwell : search.WellFormed) {before after : Config α}
    (h : Follows search costs before) (hbooks : Books search costs before)
    (hmove : Move search costs before after) : Follows search costs after := by
  cases hmove with
  | pop hstop hqueue =>
    exact h.of_same rfl (fun hnone => hnone) fun _ _ _ _ _ _ _ _ _ hflag _ _ _ => ⟨hflag, not_false⟩
  | skip hskip =>
    exact h.of_same rfl (fun hnone => hnone) fun _ _ _ _ _ _ _ _ _ hflag _ _ _ => ⟨hflag, not_false⟩
  | @begin state node id todo label hlabel hflag hnew =>
    refine h.of_same rfl (fun hnone => hnone) ?_
    intro other known place arc price more hknown hplace harc hextended hahead _ _
    refine ⟨?_, not_false⟩
    simp only [Array.getElem?_setIfInBounds] at hextended
    split at hextended
    · -- all arcs of the label that begins to be extended still lie ahead
      next heq =>
      subst heq
      obtain ⟨same, hsame, hat⟩ := hbooks.phase.2 id List.mem_cons_self
      change state.pool.history[id]? = some known at hknown
      rw [hknown, Option.some.injEq] at hsame
      subst hsame
      have heq : place = node := Int.ofNat_inj.mp (hplace.symm.trans hat)
      exact absurd ⟨rfl, heq ▸ harc⟩ hahead
    · exact hextended
  | @outside state node id todo label arc price arcs houtside =>
    refine h.of_same rfl (fun hnone => hnone) ?_
    intro other known place next toll more hknown hplace harc hextended hahead hmore hwithin
    refine ⟨hextended, ?_⟩
    rintro ⟨rfl, hmem⟩
    rcases List.mem_cons.mp hmem with heq | hmem
    · -- the extension along the arc that was dropped leaves a window
      simp only [Prod.mk.injEq] at heq
      obtain ⟨rfl, rfl⟩ := heq
      obtain ⟨-, hlabel, -⟩ := hbooks.phase
      change state.pool.history[id]? = some known at hknown
      rw [hlabel, Option.some.injEq] at hknown
      subst hknown
      exact absurd hwithin (of_extension_outside houtside hmore)
    · exact hahead ⟨rfl, hmem⟩
  | full hfull =>
    intro hstop
    cases hstop
  | grow hinside htarget hinsert =>
    exact h.grow hbooks (hbooks.growth hwell hinside htarget hinsert)
  | finish =>
    refine h.of_same rfl (fun hnone => hnone) fun _ _ _ _ _ _ _ _ _ hflag _ _ _ => ⟨hflag, ?_⟩
    rintro ⟨-, hmem⟩
    simp at hmem
  | sweep hcheck hsweep =>
    simp only [hbooks.sweep_eq hcheck, Prod.mk.injEq] at hsweep
    obtain ⟨rfl, -⟩ := hsweep
    exact h.of_same rfl (fun hnone => hnone) fun _ _ _ _ _ _ _ _ _ hflag _ _ _ => ⟨hflag, not_false⟩
  | leave hcheck =>
    exact h.of_same rfl (fun hnone => hnone) fun _ _ _ _ _ _ _ _ _ hflag _ _ _ => ⟨hflag, not_false⟩

/-- What is said to have been followed is so at every point of a search. -/
theorem Reached.follows (hwell : search.WellFormed) {config : Config α}
    (h : Reached search costs config) : Follows search costs config :=
  h.induct Follows.start fun _ _ hreached hmove hfollows =>
    hfollows.move hwell (hreached.books hwell) hmove

end Following

/-- What is covered at a point of a search: the empty path, and, as long as the search was not
stopped, every extension of an extended label along an arc that it has followed. -/
structure Covers (search : PathSearch Int α) (costs : Array α)
    (R : List α × α → List α × α → Prop) (config : Config α) : Prop where
  source : Met R config.state.pool search.source
    (List.replicate search.network.numResources Quantity.zero, Quantity.zero)
  followed : config.state.stop = none → ∀ (id : Nat) label (node target : Nat) arc price more total,
    config.state.pool.history[id]? = some label → label.node = (node : Int) →
    config.state.extended[id]? = some true → (arc, price) ∈ search.arcsFrom costs node →
    ¬ config.phase.Ahead id (arc, price) → arc.target = (target : Int) →
    extendResources label.resources arc.consumption = .ok more →
    Window.containsAll search.network.windows more = .ok true →
    Quantity.add? label.cost price = .ok total → Met R config.state.pool target (more, total)

/-- What is said to be covered is so at every point of a search. -/
theorem Reached.covers (hwell : search.WellFormed) (hR : TakesPlace search costs R)
    {config : Config α} (h : Reached search costs config) : Covers search costs R config where
  source := h.met hwell hR (h.history_zero hwell) rfl
  followed := by
    intro hstop id label node target arc price more total hlabel hnode hextended harc hahead htarget
      hmore hwithin htotal
    obtain ⟨other, next, -, hnext, -, -, hplace, rfl, hcost⟩ := h.follows hwell hstop id label node arc
      price more hlabel hnode hextended harc hahead hmore hwithin
    obtain rfl : next.cost = total := Except.ok.inj (hcost.symm.trans htotal)
    exact h.met hwell hR hnext (hplace.trans htarget)

/-- When a search is finished and was not stopped, a live label stands in for every path that
arrives at a node. -/
theorem Reached.met_of_arrives (hwell : search.WellFormed) (hR : StandsIn search costs R)
    {state : State Int α} (h : Reached search costs ⟨.idle, state⟩) (hstop : state.stop = none)
    (hqueue : state.queue = []) {path : List (Arc Int α)} {node : Nat} {used : List α} {cost : α}
    (harrives : Arrives search costs path node used cost) : Met R state.pool node (used, cost) := by
  have hcovers := h.covers hwell hR.takesPlace
  induction harrives with
  | start => exact hcovers.source
  | @step path node target spent more bill price total arc hpath harc htarget hmore hwithin htotal
      ih =>
    obtain ⟨id, hlive, label, hlabel, hstands⟩ := ih
    obtain ⟨same, hsame, hat⟩ := (h.books hwell).standsAt hlive
    change state.pool.history[id]? = some same at hsame
    rw [hlabel, Option.some.injEq] at hsame
    subst hsame
    have hextended := (h.worklist hwell).extended_of_finished hstop hqueue hlive
    obtain ⟨own, hown⟩ := h.spells hwell hlabel
    obtain ⟨less, sum, hless, hwithin', hsum, hcarries⟩ := hR.step own path node label.resources spent
      more label.cost bill price total arc (hown.arrives hlabel hat) hpath hstands harc hmore hwithin
      htotal
    obtain ⟨other, hother, known, hknown, hstands'⟩ := hcovers.followed hstop id label node target arc
      price less sum hlabel hat hextended harc not_false htarget hless hwithin' hsum
    exact ⟨other, hother, known, hknown, hR.trans _ _ _ hstands' hcarries⟩

end PathSearch

end PatternCovering
