import PatternCovering.Proofs.PathSearch.Columns
import PatternCovering.Proofs.PathSearch.Distinct
import PatternCovering.Proofs.PathSearch.Steady

/-!
# The cheapest label at a node

A label leaves the live ones at its node, or never joins them, only where a live label there is no
more expensive. So the best live label is the cheapest one of all that were ever created at the node,
whether it is looked at in the middle of a search or at its end. The costs have to be ordered: where
one of them is not a number, it is below no other cost and above none, and may stand in the way.

The label at the sink that is chosen in this way is read off as a column, and an offer is made for
it.
-/

namespace PatternCovering

variable {α : Type} [Quantity α] [Numeric α]

open Numeric (IsReal)

/-- Whether a quantity is a real number and not not-a-number, so that it is ordered with the others. -/
structure Numeric.IsOrdered (a : α) : Prop where
  real : IsReal a
  self : Quantity.le a a = true

/-- Of two ordered costs, that of a dominating label is not the greater one. -/
theorem Label.cost_le_of_dominates {label other : Label Int α}
    (hlabel : Numeric.IsOrdered label.cost) (hother : Numeric.IsOrdered other.cost)
    (h : label.dominates other = .ok true) : Quantity.le label.cost other.cost = true := by
  obtain ⟨above, habove, h⟩ := bind_eq_ok.mp h
  refine Numeric.le_of_lt_eq_false hlabel.real hother.real hlabel.self hother.self ?_
  rw [Quantity.lt, habove]
  cases above with
  | false => rfl
  | true => cases h

namespace PathSearch

variable {search : PathSearch Int α} {costs : Array α}

section Best

/-- Whether a label comes before another one: it is no more expensive, and no newer where both cost
the same. -/
structure Precedes (label other : Nat × Label Int α) : Prop where
  le : Quantity.le label.2.cost other.2.cost = true
  old : Quantity.le other.2.cost label.2.cost = true → label.1 ≤ other.1

/-- Labels of ordered costs come before one another in a transitive way. -/
theorem Precedes.trans {first second third : Nat × Label Int α} (h : Precedes first second)
    (hthird : Precedes second third) (hfirst : IsReal first.2.cost) (hsecond : IsReal second.2.cost)
    (hlast : IsReal third.2.cost) : Precedes first third where
  le := Numeric.le_trans hfirst hsecond hlast h.le hthird.le
  old hle := (h.old (Numeric.le_trans hsecond hlast hfirst hthird.le hle)).trans
    (hthird.old (Numeric.le_trans hlast hfirst hsecond hle h.le))

/-- The better one of two labels of ordered costs comes before both. -/
theorem precedes_of_better {label best : Nat × Label Int α}
    (hlabel : Numeric.IsOrdered label.2.cost) (hbest : Numeric.IsOrdered best.2.cost) :
    Precedes (if better label best then label else best) best ∧
      Precedes (if better label best then label else best) label := by
  have hequal : Quantity.eq label.2.cost best.2.cost = true ↔
      Quantity.le label.2.cost best.2.cost = true ∧
        Quantity.le best.2.cost label.2.cost = true := by
    rw [Numeric.eq_eq hlabel.real hbest.real, Bool.and_eq_true]
  split
  · next hbetter =>
    refine ⟨?_, hlabel.self, fun _ => Nat.le_refl _⟩
    rw [better] at hbetter
    split at hbetter
    · next heq => exact ⟨(hequal.mp heq).1, fun _ => Nat.le_of_lt (of_decide_eq_true hbetter)⟩
    · next hne =>
      rw [Numeric.lt_eq hlabel.real hbest.real, Bool.and_eq_true] at hbetter
      exact ⟨hbetter.1, fun hle => absurd (hequal.mpr ⟨hbetter.1, hle⟩) hne⟩
  · next hbetter =>
    refine ⟨⟨hbest.self, fun _ => Nat.le_refl _⟩, ?_⟩
    rw [better] at hbetter
    split at hbetter
    · next heq =>
      refine ⟨(hequal.mp heq).2, fun _ => ?_⟩
      rw [decide_eq_true_eq] at hbetter
      omega
    · next hne =>
      have hle := Numeric.le_of_lt_eq_false hbest.real hlabel.real hbest.self hlabel.self
        (Bool.not_eq_true _ ▸ hbetter)
      exact ⟨hle, fun hge => absurd (hequal.mpr ⟨hge, hle⟩) hne⟩

/-- The label that is kept along some labels of ordered costs comes before all of them. -/
theorem precedes_foldl {first : Nat × Label Int α} {rest : List (Nat × Label Int α)}
    (hordered : ∀ entry ∈ first :: rest, Numeric.IsOrdered entry.2.cost) :
    ∀ entry ∈ first :: rest, Precedes (rest.foldl (fun best label =>
      if better label best then label else best) first) entry := by
  induction rest generalizing first with
  | nil =>
    intro entry hentry
    rw [List.mem_singleton.mp hentry]
    exact ⟨(hordered first List.mem_cons_self).self, fun _ => Nat.le_refl _⟩
  | cons next rest ih =>
    obtain ⟨hfirst, hnext, hrest⟩ : Numeric.IsOrdered first.2.cost ∧ Numeric.IsOrdered next.2.cost ∧
        ∀ entry ∈ rest, Numeric.IsOrdered entry.2.cost := by
      simpa only [List.forall_mem_cons] using hordered
    obtain ⟨hold, hnew⟩ := precedes_of_better hnext hfirst
    generalize hkept : (if better next first then next else first) = kept at hold hnew
    have hchosen : Numeric.IsOrdered kept.2.cost := by
      rw [← hkept]
      split
      · exact hnext
      · exact hfirst
    have hall : ∀ entry ∈ kept :: rest, Numeric.IsOrdered entry.2.cost :=
      List.forall_mem_cons.mpr ⟨hchosen, hrest⟩
    have hlast := hall _ (mem_foldl_better kept rest)
    have hhead := ih hall kept List.mem_cons_self
    rw [List.foldl_cons, hkept]
    intro entry hentry
    rcases List.mem_cons.mp hentry with rfl | hentry
    · exact hhead.trans hold hlast.real hchosen.real hfirst.real
    · rcases List.mem_cons.mp hentry with rfl | hentry
      · exact hhead.trans hnew hlast.real hchosen.real hnext.real
      · exact ih hall entry (List.mem_cons_of_mem _ hentry)

/-- The best of some labels of ordered costs is the one among them that comes first. -/
theorem exists_precedes_of_best? {labels : List (Nat × Label Int α)} {label : Label Int α}
    (hordered : ∀ entry ∈ labels, Numeric.IsOrdered entry.2.cost) (h : best? labels = some label) :
    ∃ id, (id, label) ∈ labels ∧ ∀ entry ∈ labels, Precedes (id, label) entry := by
  cases labels with
  | nil => simp [best?] at h
  | cons first rest =>
    simp only [best?, Option.some.injEq] at h
    subst h
    exact ⟨_, mem_foldl_better first rest, precedes_foldl hordered⟩

/-- The best of some labels of ordered costs is no more expensive than any of them. -/
theorem le_of_best? {labels : List (Nat × Label Int α)} {label : Label Int α}
    (hordered : ∀ entry ∈ labels, Numeric.IsOrdered entry.2.cost)
    (h : best? labels = some label) : ∀ entry ∈ labels, Quantity.le label.cost entry.2.cost = true := by
  obtain ⟨id, -, hfirst⟩ := exists_precedes_of_best? hordered h
  exact fun entry hentry => (hfirst entry hentry).le

end Best

section Live

/-- Whether the costs of all labels that were created at a node are ordered. -/
def OrderedAt (pool : LabelPool Int α) (node : Nat) : Prop :=
  ∀ label ∈ pool.history, label.node = (node : Int) → Numeric.IsOrdered label.cost

/-- Whether a live label at a node is no more expensive than a cost. -/
def LiveWithin (pool : LabelPool Int α) (node : Nat) (cost : α) : Prop :=
  ∃ id ∈ pool.liveAt node, ∃ label, pool.history[id]? = some label ∧
    Quantity.le label.cost cost = true

variable {phase : Phase α} {state : State Int α} {node id target place : Nat} {label : Label Int α}
  {arc : Arc Int α} {price : α} {used : List α} {cost : α} {pool : LabelPool Int α}
  {inserted : Bool}

/-- A created label is live within its own cost, or a live label that dominates it is. -/
theorem Growth.liveWithin
    (g : Growth search costs state node id label arc price used cost pool target inserted)
    (hbooks : Books search costs ⟨phase, state⟩) (hordered : OrderedAt pool target) :
    LiveWithin pool target cost := by
  have hnew : Numeric.IsOrdered cost :=
    hordered _ (List.mem_of_getElem? g.getElem?_numCreated) g.target_eq
  rcases g.created_cases hbooks with ⟨-, hlive⟩ | ⟨-, -, hsame, other, hother, known, hknown, hdom⟩
  · exact ⟨_, hlive, _, g.getElem?_numCreated, hnew.self⟩
  · obtain ⟨same, hsameLabel, hat⟩ := hbooks.standsAt hother
    rw [hknown, Option.some.injEq] at hsameLabel
    have hold : Numeric.IsOrdered known.cost :=
      hordered _ (List.mem_of_getElem? (g.getElem?_history hknown)) (hsameLabel ▸ hat)
    exact ⟨other, (hsame target).symm ▸ hother, known, g.getElem?_history hknown,
      Label.cost_le_of_dominates hold hnew hdom⟩

/-- A node that has a live label within a cost keeps one when a label is created. -/
theorem LiveWithin.grow
    (g : Growth search costs state node id label arc price used cost pool target inserted)
    (hbooks : Books search costs ⟨phase, state⟩) (hordered : OrderedAt pool place) {bound : α}
    (hbound : IsReal bound) (h : LiveWithin state.pool place bound) :
    LiveWithin pool place bound := by
  obtain ⟨other, hother, known, hknown, hle⟩ := h
  rcases g.live_or_dominated hbooks hknown hother with hlive | ⟨-, hinserted, rfl, hdom⟩
  · exact ⟨other, hlive, known, g.getElem?_history hknown, hle⟩
  · -- the created label has taken its place
    obtain ⟨same, hsameLabel, hat⟩ := hbooks.standsAt hother
    rw [hknown, Option.some.injEq] at hsameLabel
    have hold : Numeric.IsOrdered known.cost :=
      hordered _ (List.mem_of_getElem? (g.getElem?_history hknown)) (hsameLabel ▸ hat)
    have hnew : Numeric.IsOrdered cost :=
      hordered _ (List.mem_of_getElem? g.getElem?_numCreated) g.target_eq
    have hless : Quantity.le cost known.cost = true := Label.cost_le_of_dominates hnew hold hdom
    rcases g.created_cases hbooks with ⟨-, hlive⟩ | ⟨hturned, -⟩
    · exact ⟨_, hlive, _, g.getElem?_numCreated,
        Numeric.le_trans hnew.real hold.real hbound hless hle⟩
    · rw [hinserted] at hturned
      cases hturned

/-- Where the costs at a node are ordered, a live label there is no more expensive than any label
that was created there. -/
theorem Reached.liveWithin (hwell : search.WellFormed) {config : Config α}
    (h : Reached search costs config) (hordered : OrderedAt config.state.pool place)
    (hlabel : label ∈ config.state.pool.history) (hplace : label.node = (place : Int)) :
    LiveWithin config.state.pool place label.cost := by
  revert label
  revert hordered
  refine h.induct (P := fun config => OrderedAt config.state.pool place →
    ∀ label ∈ config.state.pool.history, label.node = (place : Int) →
      LiveWithin config.state.pool place label.cost) ?_ ?_
  · intro hordered label hlabel hplace
    have hself := (hordered label hlabel hplace).self
    change label ∈ search.start.pool.history at hlabel
    change LiveWithin search.start.pool place label.cost
    rw [history_start search hwell.source_lt, List.mem_singleton] at hlabel
    subst hlabel
    obtain rfl : search.source = place := Int.ofNat_inj.mp hplace
    refine ⟨0, ?_, search.firstLabel, ?_, hself⟩
    · simp [liveAt_start search hwell.source_lt]
    · simp [history_start search hwell.source_lt]
  · intro before after hreached hmove ih hordered label hlabel hplace
    have hbooks := hreached.books hwell
    rcases hbooks.pool_cases hwell hmove with hsame | ⟨node, todo, id, previous, arc, price, arcs,
      used, cost, target, inserted, -, -, -, g⟩
    · rw [hsame] at hordered hlabel ⊢
      exact ih hordered label hlabel hplace
    · have hbefore : OrderedAt before.state.pool place := fun other hother hat =>
        hordered other (g.history_eq ▸ List.mem_append_left _ hother) hat
      have hreal := (hordered label hlabel hplace).real
      rw [g.history_eq, List.mem_append, List.mem_singleton] at hlabel
      rcases hlabel with hold | rfl
      · exact (ih hbefore label hold hplace).grow g hbooks hordered hreal
      · obtain rfl : target = place := Int.ofNat_inj.mp (g.target_eq.symm.trans hplace)
        exact g.liveWithin hbooks hordered

end Live

/-- What it means that a label is the one chosen at the sink and the cheapest one of all that were
created there. -/
structure CheapestAtSink (search : PathSearch Int α) (pool : LabelPool Int α) (best : Label Int α) :
    Prop where
  chosen : search.bestAtSink? pool = some best
  created : best.unflagged ∈ pool.history
  node_eq : best.node = (search.sink : Int)
  cost_le : ∀ label ∈ pool.history, label.node = (search.sink : Int) →
    Quantity.le best.cost label.cost = true

omit [Numeric α] in
/-- A live label was created at its node. -/
theorem Books.created_of_mem {config : Config α} (hbooks : Books search costs config) {node : Nat}
    {entry : Nat × Label Int α}
    (h : entry ∈ (config.state.pool.liveAt node).toList.filterMap
      (fun id => config.state.pool.arena[id]?.map (id, ·))) :
    entry.2.unflagged ∈ config.state.pool.history ∧ entry.2.node = (node : Int) := by
  obtain ⟨hlive, hlabel⟩ := mem_liveLabels.mp h
  have hhistory : config.state.pool.history[entry.1]? = some entry.2.unflagged := by
    rw [LabelPool.getElem?_history, hlabel]
    rfl
  obtain ⟨known, hknown, hat⟩ := hbooks.standsAt hlive
  rw [hhistory, Option.some.injEq] at hknown
  rw [← hknown] at hat
  exact ⟨List.mem_of_getElem? hhistory, hat⟩

/-- Where the costs at the sink are ordered and a label was created there, the chosen label is the
cheapest one of all that were. -/
theorem Reached.exists_cheapestAtSink (hwell : search.WellFormed) {config : Config α}
    (h : Reached search costs config) (hordered : OrderedAt config.state.pool search.sink)
    (hcreated : ∃ label ∈ config.state.pool.history, label.node = (search.sink : Int)) :
    ∃ best, CheapestAtSink search config.state.pool best := by
  have hbooks := h.books hwell
  generalize hlabels : (config.state.pool.liveAt search.sink).toList.filterMap
    (fun id => config.state.pool.arena[id]?.map (id, ·)) = labels
  have hentries : ∀ entry ∈ labels, entry.2.unflagged ∈ config.state.pool.history ∧
      entry.2.node = (search.sink : Int) := by
    rw [← hlabels]
    exact fun entry hentry => hbooks.created_of_mem hentry
  have hcosts : ∀ entry ∈ labels, Numeric.IsOrdered entry.2.cost := fun entry hentry =>
    hordered entry.2.unflagged (hentries entry hentry).1 (hentries entry hentry).2
  -- every label that was created at the sink has a live one below it
  have hbelow : ∀ label ∈ config.state.pool.history, label.node = (search.sink : Int) →
      ∃ entry ∈ labels, Quantity.le entry.2.cost label.cost = true := by
    intro label hlabel hat
    obtain ⟨id, hid, known, hknown, hle⟩ := h.liveWithin hwell hordered hlabel hat
    rw [LabelPool.getElem?_history] at hknown
    obtain ⟨entry, hentry, rfl⟩ := Option.map_eq_some_iff.mp hknown
    exact ⟨(id, entry), hlabels ▸ mem_liveLabels.mpr ⟨hid, hentry⟩, hle⟩
  obtain ⟨first, hfirst, hat⟩ := hcreated
  obtain ⟨best, hbest⟩ : ∃ best, search.bestAtSink? config.state.pool = some best := by
    obtain ⟨entry, hentry, -⟩ := hbelow first hfirst hat
    rw [bestAtSink?, hlabels]
    cases labels with
    | nil => cases hentry
    | cons first rest => exact ⟨_, rfl⟩
  have hchosen : best? labels = some best := by rw [← hlabels]; exact hbest
  obtain ⟨id, hmem⟩ := mem_of_best? hchosen
  obtain ⟨hcreated, hnode⟩ := hentries _ hmem
  refine ⟨best, hbest, hcreated, hnode, fun label hlabel hat => ?_⟩
  obtain ⟨entry, hentry, hle⟩ := hbelow label hlabel hat
  exact Numeric.le_trans (hcosts _ hmem).real (hcosts _ hentry).real (hordered _ hlabel hat).real
    (le_of_best? hcosts hchosen entry hentry) hle

section Offered

omit [Numeric α] in
/-- A path has no more arcs than labels were created before the one that spells it. -/
theorem Spells.length_le {history : List (Label Int α)} {id : Nat} {path : List (Arc Int α)}
    (h : Spells search costs history id path) : path.length ≤ id := by
  induction h with
  | first => exact Nat.le_refl 0
  | next _ hlt _ _ _ _ _ _ _ _ _ _ ih =>
    rw [List.length_append, List.length_singleton]
    omega

/-- Where the cost of a pattern is a number, the label that is chosen at the sink is read off as a
column with a count for each item, and no count is above the number of labels. -/
theorem Reached.exists_columnOf (hnumeric : search.IsNumeric costs)
    (hcost : Numeric.IsNumber search.settings.unitCost) {state : State Int α}
    (h : Reached search costs ⟨.idle, state⟩) {label : Label Int α}
    (hbest : search.bestAtSink? state.pool = some label) :
    ∃ column, search.columnOf state.pool label = .ok column ∧ Numeric.IsNumber column.cost ∧
      (column.counts.length : Int) = search.numItems ∧
      ∀ count ∈ column.counts, count ≤ state.pool.numCreated := by
  have hwell := hnumeric.well
  obtain ⟨id, -, hlabel⟩ := of_bestAtSink? hbest
  have hhistory : state.pool.history[id]? = some label.unflagged := by
    rw [LabelPool.getElem?_history, hlabel]
    rfl
  obtain ⟨path, hpath⟩ := h.spells hwell hhistory
  have harcs : ∀ arc ∈ path, arc ∈ search.network.arcs := by
    obtain ⟨node, used, cost, harrives⟩ := hpath.exists_arrives hwell
    exact fun arc harc => harrives.mem_arcs hwell harc
  have hpathCosts : ∀ amount ∈ path.map (·.cost), Numeric.IsNumber amount := by
    intro amount hamount
    obtain ⟨arc, harc, rfl⟩ := List.mem_map.mp hamount
    exact hnumeric.network.cost arc (harcs arc harc)
  obtain ⟨pathCost, hpathCost, hreal⟩ := Numeric.foldlM_add?_ok hpathCosts Numeric.zero
  obtain ⟨total, htotal, hnumber⟩ := Numeric.add? hcost (Numeric.isNumber hreal)
  have hcopies : ∀ count ∈ itemCounts search.numItems.toNat path,
      count ≤ state.pool.numCreated := by
    intro count hcount
    obtain ⟨item, -, rfl⟩ := List.mem_map.mp hcount
    have hpathLength := hpath.length_le
    have hid : id < state.pool.numCreated := (Array.getElem?_eq_some_iff.mp hlabel).1
    have hcopies := List.countP_le_length (l := path)
      (p := fun arc => decide (arc.item = some (item : Int)))
    omega
  rw [hwell.columnOf_eq hlabel hpath harcs, hpathCost]
  simp only [htotal, bind, Except.bind, pure, Except.pure]
  refine ⟨_, rfl, Numeric.isNumber (hnumber (Or.inr hreal)), ?_, hcopies⟩
  rw [length_itemCounts]
  exact Int.toNat_of_nonneg hwell.numItems_nonneg

/-- Where the cost of a pattern is a number and real numbers can be multiplied by as many copies as
there may be labels, an offer is made at the end of a search. -/
theorem Reached.exists_offerAt (hnumeric : search.IsNumeric costs)
    (hcost : Numeric.IsNumber search.settings.unitCost) {most : Nat}
    (hcounts : Numeric.CountsUpTo α most) {duals : List α}
    (hlength : (duals.length : Int) = search.numItems) (hduals : ∀ dual ∈ duals, IsReal dual)
    {state : State Int α} (h : Reached search costs ⟨.idle, state⟩)
    (hmost : state.pool.numCreated ≤ most) : ∃ offer, search.offerAt duals state = .ok offer := by
  rw [offerAt]
  rcases hbest : search.bestAtSink? state.pool with - | label
  · exact ⟨_, rfl⟩
  · obtain ⟨column, hcolumn, hnumber, hsize, hcopies⟩ := h.exists_columnOf hnumeric hcost hbest
    have hmatch : duals.length = column.counts.length := by omega
    obtain ⟨reducedCost, hreduced⟩ := Numeric.reducedCostUnder_ok hcounts hmatch hduals
      (fun count hcount => (hcopies count hcount).trans hmost) hnumber
    simp only [hcolumn, hreduced, bind, Except.bind, pure, Except.pure]
    exact ⟨_, rfl⟩

end Offered

end PathSearch

end PatternCovering
