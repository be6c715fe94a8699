import PatternCovering.Proofs.PathSearch.Books

/-!
# The paths that labels stand for

A path arrives at a node with its totals when every extension along it stays inside the windows. In
the history of a search every label spells such a path: the path of the label that it extends,
followed by one arc. The arcs and the nodes read back from a label are those of the path that it
spells.
-/

namespace PatternCovering

namespace PathSearch

variable {α : Type} [Quantity α] {search : PathSearch Int α} {costs : Array α}

/-- The paths from the source that stay inside the windows, with the node at which they end, the
resources that they use and their cost. -/
inductive Arrives (search : PathSearch Int α) (costs : Array α) :
    List (Arc Int α) → Nat → List α → α → Prop
  | start : Arrives search costs [] search.source
    (List.replicate search.network.numResources Quantity.zero) Quantity.zero
  | step {path : List (Arc Int α)} {node target : Nat} {used more : List α} {cost price total : α}
    {arc : Arc Int α} (hpath : Arrives search costs path node used cost)
    (harc : (arc, price) ∈ search.arcsFrom costs node) (htarget : arc.target = (target : Int))
    (hused : extendResources used arc.consumption = .ok more)
    (hwithin : Window.containsAll search.network.windows more = .ok true)
    (htotal : Quantity.add? cost price = .ok total) :
    Arrives search costs (path ++ [arc]) target more total

/-- The path that a label of a history stands for: the path of the label that it extends, followed
by the arc by which it does. -/
inductive Spells (search : PathSearch Int α) (costs : Array α) (history : List (Label Int α)) :
    Nat → List (Arc Int α) → Prop
  | first (hlabel : history[0]? = some search.firstLabel) : Spells search costs history 0 []
  | next {previous id node : Nat} {path : List (Arc Int α)} {before label : Label Int α}
    {arc : Arc Int α} {price : α} (hpath : Spells search costs history previous path)
    (hlt : previous < id) (hbefore : history[previous]? = some before)
    (hlabel : history[id]? = some label) (hnode : before.node = (node : Int))
    (harc : (arc, price) ∈ search.arcsFrom costs node)
    (hpredecessor : label.predecessor = some (previous : Int))
    (hindex : label.arc = some arc.index) (htarget : label.node = arc.target)
    (hused : extendResources before.resources arc.consumption = .ok label.resources)
    (hwithin : Window.containsAll search.network.windows label.resources = .ok true)
    (htotal : Quantity.add? before.cost price = .ok label.cost) :
    Spells search costs history id (path ++ [arc])

namespace Spells

variable {history : List (Label Int α)} {id : Nat} {path : List (Arc Int α)}

/-- A label that spells a path is in the history. -/
theorem lt_length (h : Spells search costs history id path) : id < history.length := by
  cases h with
  | first hlabel => exact (List.getElem?_eq_some_iff.mp hlabel).1
  | next _ _ _ hlabel => exact (List.getElem?_eq_some_iff.mp hlabel).1

/-- A label spells its path as long as the history grows. -/
theorem mono (h : Spells search costs history id path) {grown : List (Label Int α)}
    (hinitial : history <+: grown) : Spells search costs grown id path := by
  induction h with
  | first hlabel => exact first (getElem?_of_isPrefix hinitial hlabel)
  | next _ hlt hbefore hlabel hnode harc hpredecessor hindex htarget hused hwithin htotal ih =>
    exact next ih hlt (getElem?_of_isPrefix hinitial hbefore) (getElem?_of_isPrefix hinitial hlabel)
      hnode harc hpredecessor hindex htarget hused hwithin htotal

/-- Every part of a path that a label spells, from its start, is spelled by a label. -/
theorem exists_of_isPrefix (h : Spells search costs history id path) {part : List (Arc Int α)}
    (hpart : part <+: path) : ∃ other, Spells search costs history other part := by
  induction h with
  | first hlabel => exact ⟨0, List.prefix_nil.mp hpart ▸ first hlabel⟩
  | next hpath hlt hbefore hlabel hnode harc hpredecessor hindex htarget hused hwithin htotal ih =>
    rcases List.prefix_concat_iff.mp hpart with rfl | hpart
    · exact ⟨_, next hpath hlt hbefore hlabel hnode harc hpredecessor hindex htarget hused hwithin
        htotal⟩
    · exact ih hpart

/-- The path that a label spells arrives with the totals of the label. -/
theorem arrives (h : Spells search costs history id path) {label : Label Int α} {node : Nat}
    (hlabel : history[id]? = some label) (hnode : label.node = (node : Int)) :
    Arrives search costs path node label.resources label.cost := by
  induction h generalizing label node with
  | first hfirst =>
    rw [hfirst, Option.some.injEq] at hlabel
    subst hlabel
    rw [← Int.ofNat_inj.mp hnode]
    exact Arrives.start
  | next _ _ hbefore hknown hplace harc _ _ htarget hused hwithin htotal ih =>
    rw [hknown, Option.some.injEq] at hlabel
    subst hlabel
    exact Arrives.step (ih hbefore hplace) harc (htarget.symm.trans hnode) hused hwithin htotal

/-- A label that spells a path stands at a node of the network. -/
theorem exists_node (hwell : search.WellFormed) (h : Spells search costs history id path)
    {label : Label Int α} (hlabel : history[id]? = some label) :
    ∃ node : Nat, label.node = (node : Int) := by
  cases h with
  | first hfirst =>
    rw [hfirst, Option.some.injEq] at hlabel
    exact ⟨search.source, hlabel ▸ rfl⟩
  | next _ _ _ hknown _ harc _ _ htarget =>
    rw [hknown, Option.some.injEq] at hlabel
    subst hlabel
    have hend := hwell.network.hasTarget _ (hwell.mem_arcs harc).1
    exact ⟨_, htarget.trans (Int.toNat_of_nonneg hend.1).symm⟩

/-- The path that a label spells arrives somewhere. -/
theorem exists_arrives (hwell : search.WellFormed) (h : Spells search costs history id path) :
    ∃ node used cost, Arrives search costs path node used cost := by
  have hlabel := List.getElem?_eq_getElem h.lt_length
  obtain ⟨node, hnode⟩ := h.exists_node hwell hlabel
  exact ⟨node, _, _, h.arrives hlabel hnode⟩

end Spells

/-- A label that extends one of a history along an arc spells a path, once the labels of the history
do. -/
theorem spells_concat {history : List (Label Int α)} {previous id node : Nat}
    {before label : Label Int α} {arc : Arc Int α} {price : α}
    (hall : ∀ (id : Nat) label, history[id]? = some label → ∃ path, Spells search costs history id path)
    (hbefore : history[previous]? = some before) (hnode : before.node = (node : Int))
    (harc : (arc, price) ∈ search.arcsFrom costs node)
    (hpredecessor : label.predecessor = some (previous : Int))
    (hindex : label.arc = some arc.index) (htarget : label.node = arc.target)
    (hused : extendResources before.resources arc.consumption = .ok label.resources)
    (hwithin : Window.containsAll search.network.windows label.resources = .ok true)
    (htotal : Quantity.add? before.cost price = .ok label.cost) {known : Label Int α}
    (hknown : (history ++ [label])[id]? = some known) :
    ∃ path, Spells search costs (history ++ [label]) id path := by
  have hinitial : history <+: history ++ [label] := List.prefix_append _ _
  rw [List.getElem?_append] at hknown
  split at hknown
  · obtain ⟨path, hpath⟩ := hall id known hknown
    exact ⟨path, hpath.mono hinitial⟩
  · next hge =>
    obtain ⟨path, hpath⟩ := hall previous before hbefore
    have hid : id = history.length := by
      rw [List.getElem?_singleton] at hknown
      split at hknown
      · omega
      · simp at hknown
    subst hid
    exact ⟨path ++ [arc], Spells.next (hpath.mono hinitial) hpath.lt_length
      (getElem?_of_isPrefix hinitial hbefore) List.getElem?_concat_length hnode harc hpredecessor
      hindex htarget hused hwithin htotal⟩

/-- A created label spells the path of the label that it extends, followed by the arc. -/
theorem Growth.spells {state : State Int α} {node id target : Nat} {label : Label Int α}
    {arc : Arc Int α} {price : α} {used : List α} {cost : α} {pool : LabelPool Int α}
    {inserted : Bool}
    (g : Growth search costs state node id label arc price used cost pool target inserted)
    {path : List (Arc Int α)} (hpath : Spells search costs state.pool.history id path) :
    Spells search costs pool.history state.pool.numCreated (path ++ [arc]) :=
  Spells.next (hpath.mono ⟨_, g.history_eq.symm⟩) (LabelPool.length_history _ ▸ hpath.lt_length)
    (g.getElem?_history g.label_eq) g.getElem?_numCreated g.node_eq g.mem_arcs
    (congrArg some g.id_eq) rfl rfl g.resources g.within g.total

/-- Every label of a search spells a path. -/
theorem Reached.spells (hwell : search.WellFormed) {config : Config α}
    (h : Reached search costs config) {id : Nat} {label : Label Int α}
    (hlabel : config.state.pool.history[id]? = some label) :
    ∃ path, Spells search costs config.state.pool.history id path := by
  suffices hall : ∀ (id : Nat) label, config.state.pool.history[id]? = some label →
      ∃ path, Spells search costs config.state.pool.history id path from hall id label hlabel
  clear hlabel
  refine h.induct (P := fun config => ∀ (id : Nat) label,
    config.state.pool.history[id]? = some label →
      ∃ path, Spells search costs config.state.pool.history id path) ?_ ?_
  · intro id label hlabel
    have hstart := history_start search hwell.source_lt
    change search.start.pool.history[id]? = some label at hlabel
    have hzero : id = 0 := by
      have hlt := (List.getElem?_eq_some_iff.mp hlabel).1
      rw [hstart, List.length_singleton] at hlt
      omega
    subst hzero
    refine ⟨[], Spells.first ?_⟩
    change search.start.pool.history[0]? = some search.firstLabel
    rw [hstart]
    rfl
  · intro before after hreached hmove ih id label hlabel
    have hbooks := hreached.books hwell
    rcases hbooks.pool_cases hwell hmove with hsame |
      ⟨node, todo, previous, extends', arc, price, arcs, used, cost, target, inserted, -, -, -, g⟩
    · rw [hsame] at hlabel ⊢
      exact ih id label hlabel
    · rw [g.history_eq] at hlabel ⊢
      exact spells_concat ih g.label_eq g.node_eq g.mem_arcs (congrArg some g.id_eq) rfl rfl
        g.resources g.within g.total hlabel

/-- The first label of a search stays in its history. -/
theorem Reached.history_zero (hwell : search.WellFormed) {config : Config α}
    (h : Reached search costs config) :
    config.state.pool.history[0]? = some search.firstLabel := by
  refine getElem?_of_isPrefix (Reached.history_isPrefix hwell Relation.ReflTransGen.refl h) ?_
  simp [history_start search hwell.source_lt]

/-- The labels from the source to a label go along the arcs and the nodes of the path that it
spells. -/
theorem Spells.chain_eq {pool : LabelPool Int α} {id : Nat} {path : List (Arc Int α)}
    (h : Spells search costs pool.history id path) {label : Label Int α}
    (hlabel : pool.arena[id]? = some label) (steps : Nat) (hsteps : id ≤ steps) :
    ∃ first rest, pool.chain steps label = .ok (first :: rest) ∧
      rest.map (·.arc) = (path.map fun arc => some arc.index) ∧
      (first :: rest).map (·.node) = (search.source : Int) :: path.map (·.target) := by
  have hhistory : ∀ (i : Nat) known, pool.arena[i]? = some known →
      pool.history[i]? = some known.unflagged := by
    intro i known hknown
    rw [LabelPool.getElem?_history, hknown]
    rfl
  induction h generalizing label steps with
  | first hfirst =>
    rw [hhistory 0 label hlabel, Option.some.injEq] at hfirst
    have hsource : label.predecessor = none := congrArg Label.predecessor hfirst
    have hplace : label.node = (search.source : Int) := congrArg Label.node hfirst
    refine ⟨label, [], ?_, rfl, by simp [hplace]⟩
    cases steps with
    | zero => rfl
    | succ steps => rw [LabelPool.chain, hsource]
  | @next previous id node path before known arc price hpath hlt hbefore hknown hnode harc
      hpredecessor hindex htarget hused hwithin htotal ih =>
    rw [hhistory id label hlabel, Option.some.injEq] at hknown
    subst hknown
    obtain ⟨steps, rfl⟩ : ∃ less, steps = less + 1 := ⟨steps - 1, by omega⟩
    have hprevious : previous < pool.arena.size := by
      simpa [LabelPool.numCreated] using hpath.lt_length
    have hget : pool.get (previous : Int) = .ok pool.arena[previous] :=
      Position.element_eq_ok (Array.getElem?_eq_getElem hprevious)
    obtain ⟨first, rest, hchain, hrest, hnodes⟩ :=
      ih (Array.getElem?_eq_getElem hprevious) steps (by omega)
    refine ⟨first, rest ++ [label], ?_, ?_, ?_⟩
    · change label.predecessor = some (previous : Int) at hpredecessor
      rw [LabelPool.chain, hpredecessor]
      simp [hget, hchain, bind, Except.bind, pure, Except.pure]
    · change label.arc = some arc.index at hindex
      rw [List.map_append, List.map_append, hrest]
      simp [hindex]
    · change label.node = arc.target at htarget
      rw [← List.cons_append, List.map_append, hnodes]
      simp [htarget]

/-- The arcs read back from a label are those of the path that it spells. -/
theorem Spells.arcPath_eq {pool : LabelPool Int α} {id : Nat} {path : List (Arc Int α)}
    (h : Spells search costs pool.history id path) {label : Label Int α}
    (hlabel : pool.arena[id]? = some label) :
    pool.arcPath label = .ok (path.map fun arc => some arc.index) := by
  have hlt := (Array.getElem?_eq_some_iff.mp hlabel).1
  obtain ⟨first, rest, hchain, hrest, -⟩ := h.chain_eq hlabel pool.numCreated (Nat.le_of_lt hlt)
  simp [LabelPool.arcPath, hchain, hrest, bind, Except.bind, pure, Except.pure]

/-- The nodes read back from a label are those that the path it spells comes through. -/
theorem Spells.nodePath_eq {pool : LabelPool Int α} {id : Nat} {path : List (Arc Int α)}
    (h : Spells search costs pool.history id path) {label : Label Int α}
    (hlabel : pool.arena[id]? = some label) :
    pool.nodePath label = .ok ((search.source : Int) :: path.map (·.target)) := by
  have hlt := (Array.getElem?_eq_some_iff.mp hlabel).1
  obtain ⟨first, rest, hchain, -, hnodes⟩ := h.chain_eq hlabel pool.numCreated (Nat.le_of_lt hlt)
  rw [LabelPool.nodePath, hchain, ← hnodes]
  rfl

end PathSearch

end PatternCovering
