import PatternCovering.Proofs.Double.Values
import PatternCovering.Proofs.Exact
import PatternCovering.Proofs.Label.Runs

/-!
# The live labels of a node as a Pareto front

The cost and the resources of a label without not-a-number are its totals, and where resources are as
many, a label dominates another exactly if its totals are at most those of the other. Totals are
partially ordered, so that dominance is carried through chains: at every point of a run each label that
was inserted at a node is dominated by a live one there, although the label that took it out may have
been taken out since.

Where live labels do not dominate one another they have the minimal totals of all that were inserted,
each of them once. So the live totals do not depend on the order of insertions, nor on whether labels
are checked one by one or swept at the end.
-/

namespace PatternCovering

/-- Every entry of a list that is sifted is covered by one that is left, if an entry is taken out only
where another one covers it. -/
theorem exists_left_of_sift {β : Type} {drop : Array β → List β → β → Except Fault Bool}
    {P : β → Prop} (covers : β → β → Prop) (hrefl : ∀ entry, covers entry entry)
    (htrans : ∀ first second third, covers first second → covers second third → covers first third)
    (hdrop : ∀ kept rest entry, (∀ other ∈ kept.toList ++ rest, P other) → P entry →
      drop kept rest entry = .ok true → ∃ other ∈ kept.toList ++ rest, covers other entry)
    (kept : Array β) (ahead : List β) (hentries : ∀ entry ∈ kept.toList ++ ahead, P entry) :
    ∀ entry ∈ kept.toList ++ ahead, ∃ other ∈ (sift drop kept ahead).left.toList,
      covers other entry := by
  fun_induction sift drop kept ahead with
  | case1 kept => exact fun entry hentry => ⟨entry, by simpa using hentry, hrefl entry⟩
  | case2 kept first rest fault _ => exact fun entry hentry => ⟨entry, by simpa using hentry, hrefl entry⟩
  | case3 kept first rest htrue others ih =>
    have hmem : ∀ other, other ∈ kept.toList ++ lastFirst rest ↔ other ∈ kept.toList ++ rest :=
      fun other => ((lastFirst_perm rest).append_left kept.toList).mem_iff
    have hmiddle : ∀ other, other ∈ kept.toList ++ first :: rest ↔
        other = first ∨ other ∈ kept.toList ++ rest :=
      fun other => List.perm_middle.mem_iff.trans List.mem_cons
    have hrest : ∀ other ∈ kept.toList ++ rest, P other := fun other hother =>
      hentries other ((hmiddle other).mpr (Or.inr hother))
    have hleft := ih fun other hother => hrest other ((hmem other).mp hother)
    intro entry hentry
    rcases (hmiddle entry).mp hentry with rfl | hentry
    · -- what covers the entry that goes may go later, but is then covered itself
      obtain ⟨middle, hmiddle, hcovers⟩ := hdrop kept rest entry hrest (hentries entry hentry) htrue
      obtain ⟨other, hother, hlast⟩ := hleft middle ((hmem middle).mpr hmiddle)
      exact ⟨other, hother, htrans other middle entry hlast hcovers⟩
    · exact hleft entry ((hmem entry).mpr hentry)
  | case4 kept first rest _ ih => simpa using ih (by simpa using hentries)

/-- The cost and the resources of a label as values. -/
structure Totals where
  cost : Extended
  resources : List Extended
  deriving DecidableEq

namespace Totals

/-- Lists of which neither has a greater entry are the same. -/
theorem forall₂_le_antisymm {first second : List Extended}
    (h : List.Forall₂ (· ≤ ·) first second) (hge : List.Forall₂ (· ≤ ·) second first) :
    first = second := by
  induction h with
  | nil => rfl
  | cons hle _ ih =>
    cases hge with
    | cons hge hrest => rw [hle.antisymm hge, ih hrest]

/-- Totals are at most others if no entry is greater than the other one at its place. -/
instance : LE Totals where
  le first second :=
    first.cost ≤ second.cost ∧ List.Forall₂ (· ≤ ·) first.resources second.resources

instance : DecidableLE Totals := fun first second =>
  inferInstanceAs (Decidable (first.cost ≤ second.cost ∧
    List.Forall₂ (· ≤ ·) first.resources second.resources))

instance : PartialOrder Totals where
  le_refl totals := ⟨le_rfl, List.forall₂_same.mpr fun _ _ => le_rfl⟩
  le_trans first second third hfirst hsecond :=
    ⟨hfirst.1.trans hsecond.1, forall₂_le_trans hfirst.2 hsecond.2⟩
  le_antisymm first second hle hge := by
    obtain ⟨cost, resources⟩ := first
    obtain ⟨cost', resources'⟩ := second
    obtain rfl : cost = cost' := hle.1.antisymm hge.1
    exact congrArg _ (forall₂_le_antisymm hle.2 hge.2)

end Totals

namespace Label

variable {α : Type} [Quantity α] [Evaluable α]

/-- Whether a label has certain totals. -/
structure HasTotals (label : Label Int α) (totals : Totals) : Prop where
  cost : Evaluable.value? label.cost = some totals.cost
  resources : List.Forall₂ (fun amount value => Evaluable.value? amount = some value) label.resources
    totals.resources

/-- A label has one list of totals at most. -/
theorem HasTotals.unique {label : Label Int α} {first second : Totals} (h : label.HasTotals first)
    (hsecond : label.HasTotals second) : first = second := by
  obtain ⟨cost, resources⟩ := first
  obtain ⟨cost', resources'⟩ := second
  obtain rfl : cost = cost' := Option.some.inj (h.cost.symm.trans hsecond.cost)
  have hunique : Relator.RightUnique fun (amount : α) value => Evaluable.value? amount = some value :=
    fun _ _ _ hvalue hother => Option.some.inj (hvalue.symm.trans hother)
  exact congrArg _ (List.right_unique_forall₂' hunique h.resources hsecond.resources)

/-- Amounts that have values have a list of values. -/
theorem exists_values {amounts : List α} (h : ∀ amount ∈ amounts, (Evaluable.value? amount).isSome) :
    ∃ values, List.Forall₂ (fun amount value => Evaluable.value? amount = some value) amounts
      values := by
  induction amounts with
  | nil => exact ⟨[], .nil⟩
  | cons amount rest ih =>
    obtain ⟨hamount, hrest⟩ := List.forall_mem_cons.mp h
    obtain ⟨value, hvalue⟩ := Option.isSome_iff_exists.mp hamount
    obtain ⟨values, hvalues⟩ := ih hrest
    exact ⟨value :: values, .cons hvalue hvalues⟩

/-- Amounts that have values are compared like these. -/
theorem noneAbove_eq {mine theirs : List α} {values others : List Extended}
    (hmine : List.Forall₂ (fun amount value => Evaluable.value? amount = some value) mine values)
    (htheirs : List.Forall₂ (fun amount value => Evaluable.value? amount = some value) theirs others)
    (hlength : values.length = others.length) :
    noneAbove mine theirs = .ok (decide (List.Forall₂ (· ≤ ·) values others)) := by
  induction hmine generalizing theirs others with
  | nil =>
    cases htheirs with
    | nil => simp [noneAbove]
    | cons => simp at hlength
  | cons hfirst _ ih =>
    cases htheirs with
    | nil => simp at hlength
    | cons hsecond hrest =>
      rw [noneAbove, Evaluable.lt?_eq hsecond hfirst, ih hrest (by simpa using hlength)]
      simp only [List.forall₂_cons, bind, Except.bind, pure, Except.pure, decide_eq_true_eq]
      split
      · next hlt => rw [decide_eq_false fun hle => absurd hle.1 (not_le.mpr hlt)]
      · next hlt => simp [not_lt.mp hlt]

/-- A label dominates another one with as many resources exactly if its totals are at most those of
the other. -/
theorem HasTotals.dominates_eq {label other : Label Int α} {first second : Totals}
    (h : label.HasTotals first) (hother : other.HasTotals second)
    (hlength : first.resources.length = second.resources.length) :
    label.dominates other = .ok (decide (first ≤ second)) := by
  rw [dominates, Evaluable.lt?_eq hother.cost h.cost, noneAbove_eq h.resources hother.resources hlength]
  simp only [bind, Except.bind, pure, Except.pure, decide_eq_true_eq]
  split
  · next hlt => rw [decide_eq_false fun hle => absurd hle.1 (not_le.mpr hlt)]
  · next hlt => exact congrArg Except.ok (decide_eq_decide.mpr (and_iff_right (not_lt.mp hlt)).symm)

end Label

namespace LabelPool

variable {α : Type} [Quantity α] [Evaluable α] {pool after : LabelPool Int α}
  {node numResources id : Nat} {first second : Nat} {s t : Totals}

/-- Whether a label stands at a node with certain totals. -/
def Weighs (pool : LabelPool Int α) (node id : Nat) (totals : Totals) : Prop :=
  ∃ label, pool.history[id]? = some label ∧ label.node = (node : Int) ∧ label.HasTotals totals

/-- Whether all labels at a node have totals, each of as many resources. -/
def IsWeighed (pool : LabelPool Int α) (node numResources : Nat) : Prop :=
  ∀ label ∈ pool.history, label.node = (node : Int) →
    ∃ totals, label.HasTotals totals ∧ totals.resources.length = numResources

/-- A label has the same totals in all pools of the same history. -/
theorem weighs_congr (h : after.history = pool.history) :
    after.Weighs node id t ↔ pool.Weighs node id t := by
  rw [Weighs, Weighs, h]

namespace IsWeighed

/-- A label of the arena at the node has totals. -/
theorem exists_weighs {label : Label Int α} (h : pool.IsWeighed node numResources)
    (hlabel : pool.arena[id]? = some label) (hplace : label.node = (node : Int)) :
    ∃ totals, pool.Weighs node id totals := by
  have hknown : pool.history[id]? = some label.unflagged := by
    rw [getElem?_history, hlabel]
    rfl
  obtain ⟨totals, htotals, -⟩ := h label.unflagged (List.mem_of_getElem? hknown) hplace
  exact ⟨totals, label.unflagged, hknown, hplace, htotals⟩

/-- A live label at the node has totals. -/
theorem of_live (h : pool.IsWeighed node numResources) (hsound : pool.Sound)
    (hid : id ∈ pool.liveAt node) : ∃ totals, pool.Weighs node id totals := by
  obtain ⟨label, hlabel, hplace, -⟩ := hsound.live node id hid
  exact h.exists_weighs hlabel hplace

/-- Labels at the node dominate one another as their totals say. -/
theorem dominates_eq (h : pool.IsWeighed node numResources) (hfirst : pool.Weighs node first s)
    (hsecond : pool.Weighs node second t) : pool.dominates first second = .ok (decide (s ≤ t)) := by
  have hlength : ∀ {id : Nat} {totals : Totals}, pool.Weighs node id totals →
      totals.resources.length = numResources := by
    rintro id totals ⟨label, hlabel, hplace, htotals⟩
    obtain ⟨known, hknown, hlength⟩ := h label (List.mem_of_getElem? hlabel) hplace
    rw [htotals.unique hknown, hlength]
  have hlengths := (hlength hfirst).trans (hlength hsecond).symm
  obtain ⟨label, hlabel, -, htotals⟩ := hfirst
  obtain ⟨other, hother, -, hothers⟩ := hsecond
  rw [dominates_of_history hlabel hother]
  exact htotals.dominates_eq hothers hlengths

/-- Live labels at the node can be compared. -/
theorem compares (h : pool.IsWeighed node numResources) (hsound : pool.Sound) :
    ∀ first ∈ pool.liveAt node, ∀ second ∈ pool.liveAt node,
      ∃ answer, pool.dominates first second = .ok answer := by
  intro first hfirst second hsecond
  obtain ⟨s, hs⟩ := h.of_live hsound hfirst
  obtain ⟨t, ht⟩ := h.of_live hsound hsecond
  exact ⟨_, h.dominates_eq hs ht⟩

/-- A label that stands at the node can be inserted. -/
theorem insert_ok {label : Label Int α} (h : pool.IsWeighed node numResources) (hsound : pool.Sound)
    (hlabel : pool.arena[id]? = some label) (hplace : label.node = (node : Int))
    (hnode : node < pool.live.size) (check : Bool) :
    ∃ answer, (pool.insert id check).2 = .ok answer := by
  obtain ⟨t, ht⟩ := h.exists_weighs hlabel hplace
  obtain ⟨after, answer, hinsert, -⟩ :=
    LabelPool.insert_ok hlabel hplace hnode (fun other hother => by
      obtain ⟨s, hs⟩ := h.of_live hsound hother
      exact ⟨⟨_, h.dominates_eq hs ht⟩, ⟨_, h.dominates_eq ht hs⟩⟩) check
  exact ⟨answer, by rw [hinsert]⟩

/-- Of a label that a sweep takes out, a label that is left has totals that are at most as large. -/
theorem exists_left (h : pool.IsWeighed node numResources) (hsound : pool.Sound)
    (hnode : node < pool.live.size) (hid : id ∈ pool.liveAt node) (ht : pool.Weighs node id t) :
    ∃ other ∈ (pool.sweep node).1.liveAt node, ∃ s, s ≤ t ∧ pool.Weighs node other s := by
  have hleft : ∃ other ∈ (pool.swept node).left.toList, ∀ t, pool.Weighs node id t →
      ∃ s, s ≤ t ∧ pool.Weighs node other s := by
    refine exists_left_of_sift (P := (· ∈ pool.liveAt node))
      (fun other entry => ∀ t, pool.Weighs node entry t → ∃ s, s ≤ t ∧ pool.Weighs node other s)
      (fun entry t ht => ⟨t, le_rfl, ht⟩) ?_ ?_ #[] _ (by simp) id (by simpa using hid)
    · intro first second third hfirst hsecond t ht
      obtain ⟨s, hs, hweighs⟩ := hsecond t ht
      obtain ⟨r, hr, hlast⟩ := hfirst s hweighs
      exact ⟨r, hr.trans hs, hlast⟩
    · intro kept rest entry hothers hentry htrue
      obtain ⟨other, hother, hdominates⟩ := anyDominates_true htrue
      refine ⟨other, hother, fun t ht => ?_⟩
      obtain ⟨s, hs⟩ := h.of_live hsound (hothers other hother)
      rw [h.dominates_eq hs ht, Except.ok.injEq, decide_eq_true_eq] at hdominates
      exact ⟨s, hdominates, hs⟩
  obtain ⟨other, hother, hcovers⟩ := hleft
  refine ⟨other, ?_, hcovers t ht⟩
  rw [sweep_eq, liveAt_takenOut hnode, if_pos rfl]
  exact Array.mem_toList_iff.mp hother

end IsWeighed

/-- Whether a call creates no label at a node but one that has totals of a number of resources. -/
def Call.IsWeighed (node numResources : Nat) : Call α → Prop
  | .create place resources cost _ _ => place = node → resources.length = numResources ∧
      (Evaluable.value? cost).isSome ∧ ∀ amount ∈ resources, (Evaluable.value? amount).isSome
  | .insert _ _ | .sweep _ | .clear => True

instance (node numResources : Nat) (call : Call α) : Decidable (call.IsWeighed node numResources) :=
  match call with
  | .create place resources cost _ _ =>
    inferInstanceAs (Decidable (place = node → resources.length = numResources ∧
      (Evaluable.value? cost).isSome ∧ ∀ amount ∈ resources, (Evaluable.value? amount).isSome))
  | .insert _ _ | .sweep _ | .clear => inferInstanceAs (Decidable True)

namespace Tracked

variable {tracked : Tracked α} {call : Call α} {calls : List (Call α)}

/-- The totals of the labels that were inserted at a node. -/
def insertedTotals (tracked : Tracked α) (node : Nat) : Set Totals :=
  {totals | ∃ id ∈ tracked.inserted, tracked.pool.Weighs node id totals}

/-- The order of insertions does not matter for the totals that were inserted. -/
theorem insertedTotals_congr {first second : Tracked α}
    (hhistory : first.pool.history = second.pool.history)
    (hinserted : first.inserted.Perm second.inserted) :
    first.insertedTotals node = second.insertedTotals node := by
  ext t
  simp only [insertedTotals, Set.mem_ofPred_eq, hinserted.mem_iff, weighs_congr hhistory]

/-- The totals of the labels that are live at a node. -/
def liveTotals (tracked : Tracked α) (node : Nat) : Set Totals :=
  {totals | ∃ id ∈ tracked.pool.liveAt node, tracked.pool.Weighs node id totals}

/-- Whether the totals of every label that was inserted at a node are matched or undercut by those of a
live one. -/
def Covers (tracked : Tracked α) (node : Nat) : Prop :=
  ∀ t ∈ tracked.insertedTotals node, ∃ s ∈ tracked.liveTotals node, s ≤ t

/-- Labels at a node have totals after a call that creates no other ones there. -/
theorem isWeighed_perform (h : tracked.pool.IsWeighed node numResources)
    (hcall : call.IsWeighed node numResources) :
    (tracked.perform call).pool.IsWeighed node numResources := by
  cases call with
  | create place resources cost predecessor arc =>
    intro label hlabel hplace
    rw [perform, history_create, List.mem_append, List.mem_singleton] at hlabel
    rcases hlabel with hlabel | rfl
    · exact h label hlabel hplace
    · obtain ⟨hlength, hcost, hresources⟩ := hcall (Int.ofNat_inj.mp hplace)
      obtain ⟨value, hvalue⟩ := Option.isSome_iff_exists.mp hcost
      obtain ⟨values, hvalues⟩ := Label.exists_values hresources
      exact ⟨⟨value, values⟩, ⟨hvalue, hvalues⟩, hvalues.length_eq.symm.trans hlength⟩
  | insert id check =>
    rw [perform, IsWeighed, history_insert]
    exact h
  | sweep place =>
    rw [perform, IsWeighed, history_sweep]
    exact h
  | clear => exact fun label hlabel => absurd hlabel (by simp [perform, clear, history])

section Covering

variable (h : tracked.Covers node) (hkeeps : tracked.Keeps)

include h hkeeps

/-- Inserted labels stay covered when another label is created. -/
theorem Covers.create {place : Nat} {resources : List α} {cost : α} {predecessor arc : Option Int} :
    (tracked.perform (.create place resources cost predecessor arc)).Covers node := by
  have hhistory := tracked.pool.history_create (place : Int) resources cost predecessor arc
  rintro t ⟨id, hid, label, hlabel, hlabels⟩
  have hlt : id < tracked.pool.history.length := by
    rw [length_history]
    exact hkeeps.inOrder.sound.lt_of_settled ((hkeeps.inOrder.settled id).mp hid)
  rw [perform, hhistory, List.getElem?_append_left hlt] at hlabel
  obtain ⟨s, ⟨other, hother, known, hknown, htotals⟩, hle⟩ := h t ⟨id, hid, label, hlabel, hlabels⟩
  refine ⟨s, ⟨other, hother, known, ?_, htotals⟩, hle⟩
  rw [perform, hhistory, List.getElem?_append_left (List.getElem?_eq_some_iff.mp hknown).1]
  exact hknown

variable (hweighed : tracked.pool.IsWeighed node numResources)

include hweighed

/-- Inserted labels stay covered by another insertion, and the new label is covered as well. -/
theorem Covers.insert {check : Bool} (hallows : tracked.Allows (.insert id check)) :
    (tracked.perform (.insert id check)).Covers node := by
  obtain ⟨hfresh, label, hlabel, -, place, hnode, hplace⟩ :=
    hkeeps.inOrder.of_not_mem hallows.1 hallows.2
  have hhistory := tracked.pool.history_insert id check
  rw [perform]
  rcases hinsert : tracked.pool.insert id check with ⟨after, fault | answer⟩
  · -- labels at the node can be compared, so that the insertion that fails is at another one
    have hne : node ≠ place := by
      rintro rfl
      obtain ⟨answer, hanswer⟩ :=
        hweighed.insert_ok hkeeps.inOrder.sound hlabel hplace hnode check
      rw [hinsert] at hanswer
      cases hanswer
    obtain ⟨-, left, removed, -, rfl⟩ := of_insert_fails hlabel hplace hnode hinsert
    rw [hinsert] at hhistory
    rintro t ⟨other, hother, ht⟩
    obtain ⟨s, ⟨live, hlive, hs⟩, hle⟩ := h t ⟨other, hother, (weighs_congr hhistory).mp ht⟩
    refine ⟨s, ⟨live, ?_, (weighs_congr hhistory).mpr hs⟩, hle⟩
    rw [liveAt_takenOut hnode, if_neg hne]
    exact hlive
  · rw [hinsert] at hhistory
    rintro t ⟨other, hother, ht⟩
    rw [weighs_congr hhistory] at ht
    rcases List.mem_append.mp hother with hother | hnew
    · obtain ⟨s, ⟨live, hlive, hs⟩, hle⟩ := h t ⟨other, hother, ht⟩
      rcases mem_liveAt_or_dominates hlabel hplace hnode hinsert hlive with
        hstays | ⟨-, hjoins, rfl, hdominates⟩
      · exact ⟨s, ⟨live, hstays, (weighs_congr hhistory).mpr hs⟩, hle⟩
      · -- the label that covered is taken out by the new one, which then covers in its place
        obtain ⟨r, hr⟩ := hweighed.exists_weighs hlabel hplace
        rw [hweighed.dominates_eq hr hs, Except.ok.injEq, decide_eq_true_eq] at hdominates
        exact ⟨r, ⟨id, mem_liveAt_insert hlabel hplace hnode hinsert hjoins,
          (weighs_congr hhistory).mpr hr⟩, hdominates.trans hle⟩
    · obtain rfl := List.mem_singleton.mp hnew
      have hat : place = node := by
        obtain ⟨known, hknown, hat, -⟩ := ht
        rw [getElem?_history, hlabel] at hknown
        rw [← Option.some.inj hknown] at hat
        exact Int.ofNat_inj.mp (hplace.symm.trans hat)
      subst hat
      cases answer with
      | true =>
        exact ⟨t, ⟨other, mem_liveAt_insert hlabel hplace hnode hinsert rfl,
          (weighs_congr hhistory).mpr ht⟩, le_rfl⟩
      | false =>
        obtain ⟨-, ⟨live, hlive, hdominates⟩, hsame⟩ :=
          exists_dominates_of_insert hlabel hplace hnode hinsert rfl
        obtain ⟨s, hs⟩ := hweighed.of_live hkeeps.inOrder.sound hlive
        rw [hweighed.dominates_eq hs ht, Except.ok.injEq, decide_eq_true_eq] at hdominates
        exact ⟨s, ⟨live, (hsame place).symm ▸ hlive, (weighs_congr hhistory).mpr hs⟩, hdominates⟩

/-- Inserted labels stay covered when a node is swept. -/
theorem Covers.sweep {place : Nat} (hplace : place < tracked.pool.live.size) :
    (tracked.perform (.sweep place)).Covers node := by
  have hhistory := tracked.pool.history_sweep place
  rintro t ⟨id, hid, ht⟩
  obtain ⟨s, ⟨live, hlive, hs⟩, hle⟩ := h t ⟨id, hid, (weighs_congr hhistory).mp ht⟩
  by_cases hat : node = place
  · subst hat
    obtain ⟨other, hother, r, hr, hweighs⟩ :=
      hweighed.exists_left hkeeps.inOrder.sound hplace hlive hs
    exact ⟨r, ⟨other, hother, (weighs_congr hhistory).mpr hweighs⟩, hr.trans hle⟩
  · refine ⟨s, ⟨live, ?_, (weighs_congr hhistory).mpr hs⟩, hle⟩
    obtain ⟨left, removed, -, hsweep, -⟩ := tracked.pool.sweep_cases place
    rw [perform, hsweep, liveAt_takenOut hplace, if_neg hat]
    exact hlive

end Covering

/-- A run keeps the labels that were inserted at a node covered by live ones. -/
theorem Covers.run (h : tracked.Covers node) (hkeeps : tracked.Keeps)
    (hweighed : tracked.pool.IsWeighed node numResources)
    (hcalls : ∀ call ∈ calls, call.IsWeighed node numResources) (hpermits : tracked.Permits calls) :
    (tracked.run calls).Covers node ∧ (tracked.run calls).pool.IsWeighed node numResources := by
  induction calls generalizing tracked with
  | nil => exact ⟨h, hweighed⟩
  | cons call rest ih =>
    obtain ⟨hcall, hrest⟩ := List.forall_mem_cons.mp hcalls
    refine ih ?_ (hkeeps.perform hpermits.1) (isWeighed_perform hweighed hcall) hrest hpermits.2
    cases call with
    | create => exact h.create hkeeps
    | insert id check => exact h.insert hkeeps hweighed hpermits.1
    | sweep place => exact h.sweep hkeeps hweighed hpermits.1
    | clear =>
      rintro t ⟨id, hid, -⟩
      cases hid

/-- Whether the live labels at a node have the minimal totals of all labels that were inserted there,
each of them once. -/
structure IsFront (tracked : Tracked α) (node : Nat) : Prop where
  liveTotals_eq : tracked.liveTotals node = {t | Minimal (· ∈ tracked.insertedTotals node) t}
  existsUnique : ∀ t, Minimal (· ∈ tracked.insertedTotals node) t →
    ∃! id, id ∈ tracked.pool.liveAt node ∧ tracked.pool.Weighs node id t
  weighs : ∀ id ∈ tracked.pool.liveAt node, ∃ t, tracked.pool.Weighs node id t

/-- Live labels that cover all the inserted ones and do not dominate one another are a front. -/
theorem Covers.isFront (h : tracked.Covers node) (hkeeps : tracked.Keeps)
    (hweighed : tracked.pool.IsWeighed node numResources) (hclear : tracked.pool.Undominated node) :
    tracked.IsFront node := by
  have hsound := hkeeps.inOrder.sound
  have hunique : ∀ {first second : Nat} {s t : Totals}, first ∈ tracked.pool.liveAt node →
      second ∈ tracked.pool.liveAt node → tracked.pool.Weighs node first s →
      tracked.pool.Weighs node second t → s ≤ t → first = second := by
    intro first second s t hfirst hsecond hs ht hle
    by_contra hne
    have hfalse := hclear first hfirst second hsecond hne
    rw [hweighed.dominates_eq hs ht, Except.ok.injEq, decide_eq_false_iff_not] at hfalse
    exact hfalse hle
  have hminimal : ∀ {t}, Minimal (· ∈ tracked.insertedTotals node) t →
      ∃ id ∈ tracked.pool.liveAt node, tracked.pool.Weighs node id t := by
    intro t ht
    obtain ⟨s, ⟨id, hid, hs⟩, hle⟩ := h t ht.prop
    have hinserted : s ∈ tracked.insertedTotals node :=
      ⟨id, (hkeeps.inOrder.settled id).mpr (Or.inl ⟨node, hid⟩), hs⟩
    exact ⟨id, hid, hle.antisymm (ht.le_of_le hinserted hle) ▸ hs⟩
  refine ⟨Set.ext fun t => ⟨?_, hminimal⟩, fun t ht => ?_, fun id hid => hweighed.of_live hsound hid⟩
  · rintro ⟨id, hid, ht⟩
    refine ⟨⟨id, (hkeeps.inOrder.settled id).mpr (Or.inl ⟨node, hid⟩), ht⟩, fun s hs hle => ?_⟩
    obtain ⟨r, ⟨other, hother, hr⟩, hrs⟩ := h s hs
    obtain rfl := hunique hother hid hr ht (hrs.trans hle)
    obtain ⟨label, hlabel, -, hlabels⟩ := hr
    obtain ⟨label', hlabel', -, hlabels'⟩ := ht
    obtain rfl := Option.some.inj (hlabel.symm.trans hlabel')
    exact hlabels'.unique hlabels ▸ hrs
  · obtain ⟨id, hid, hweighs⟩ := hminimal ht
    exact ⟨id, ⟨hid, hweighs⟩, fun other hother => hunique hother.1 hid hother.2 hweighs le_rfl⟩

/-- Whether dominance is settled at a node when a run ends: every insertion was checked, or the last
call was a sweep of the node. -/
def IsPruned (tracked : Tracked α) (calls : List (Call α)) (node : Nat) : Prop :=
  tracked.checked = true ∨ calls.getLast? = some (.sweep node)

/-- What holds at the end of a run from a new pool whose labels at a node have totals. -/
theorem of_run {numNodes : Nat} (hpermits : (ofSize numNodes : Tracked α).Permits calls)
    (hcalls : ∀ call ∈ calls, call.IsWeighed node numResources) :
    ((ofSize numNodes).run calls).Keeps ∧ ((ofSize numNodes).run calls).Covers node ∧
      ((ofSize numNodes).run calls).pool.IsWeighed node numResources ∧
      ((ofSize numNodes).run calls).pool.live.size = numNodes := by
  obtain ⟨hkeeps, hsize⟩ := (keeps_ofSize numNodes).run hpermits
  have hcovers : (ofSize numNodes : Tracked α).Covers node := by
    rintro t ⟨id, hid, -⟩
    cases hid
  have hweighed : (ofSize numNodes : Tracked α).pool.IsWeighed node numResources :=
    fun label hlabel => by simp [ofSize, LabelPool.ofSize, history] at hlabel
  obtain ⟨hcovers, hweighed⟩ := hcovers.run (keeps_ofSize numNodes) hweighed hcalls hpermits
  exact ⟨hkeeps, hcovers, hweighed, hsize.trans (by simp [ofSize, LabelPool.ofSize])⟩

/-- A run that has settled dominance at a node leaves a front there. -/
theorem isFront_of_run {numNodes : Nat} (hnode : node < numNodes)
    (hpermits : (ofSize numNodes : Tracked α).Permits calls)
    (hcalls : ∀ call ∈ calls, call.IsWeighed node numResources)
    (hpruned : ((ofSize numNodes).run calls).IsPruned calls node) :
    ((ofSize numNodes).run calls).IsFront node := by
  obtain ⟨hkeeps, hcovers, hweighed, -⟩ := of_run hpermits hcalls
  refine hcovers.isFront hkeeps hweighed ?_
  rcases hpruned with hchecked | hlast
  · exact hkeeps.undominated hchecked node
  · obtain ⟨earlier, rfl⟩ := List.getLast?_eq_some_iff.mp hlast
    obtain ⟨hkept, -, hknown, hsize⟩ := of_run (permits_append.mp hpermits).1 fun call hcall =>
      hcalls call (List.mem_append_left _ hcall)
    obtain ⟨after, count, hsweep, -⟩ := sweep_ok (hknown.compares hkept.inOrder.sound)
    rw [run_append]
    exact undominated_sweep (hsize.symm ▸ hnode) (by rw [hsweep])

end Tracked

/-- For labels without not-a-number and with as many resources each, the live labels at a node are the
Pareto front of those that were inserted there. Calls at the node are answered, and at every point of
a run each inserted label is dominated by a live one. Once dominance is settled there, exactly one
label is live for each of the minimal totals, and no other; so a run that inserts labels of the same
totals in another order, or sweeps the node at the end and not before, leaves the same live totals. -/
theorem front_of_run {numNodes : Nat} {calls : List (Call α)} {tracked : Tracked α}
    (hnode : node < numNodes) (hpermits : (Tracked.ofSize numNodes).Permits calls)
    (hcalls : ∀ call ∈ calls, call.IsWeighed node numResources)
    (hrun : (Tracked.ofSize numNodes).run calls = tracked) :
    (∃ count, (tracked.pool.sweep node).2 = .ok count) ∧
      (∀ (id : Nat) label, tracked.pool.arena[id]? = some label → label.node = (node : Int) →
        (∀ check, ∃ answer, (tracked.pool.insert id check).2 = .ok answer) ∧
        (id ∈ tracked.inserted → ∃ other ∈ tracked.pool.liveAt node,
          tracked.pool.dominates other id = .ok true)) ∧
      (tracked.IsPruned calls node → tracked.IsFront node ∧
        ∀ (others : List (Call α)) (second : Tracked α),
          (Tracked.ofSize numNodes).Permits others →
          (∀ call ∈ others, call.IsWeighed node numResources) →
          (Tracked.ofSize numNodes).run others = second → second.IsPruned others node →
          second.insertedTotals node = tracked.insertedTotals node →
          second.liveTotals node = tracked.liveTotals node) := by
  subst hrun
  obtain ⟨hkeeps, hcovers, hweighed, hsize⟩ := Tracked.of_run hpermits hcalls
  have hsound := hkeeps.inOrder.sound
  refine ⟨?_, fun id label hlabel hplace => ⟨fun check => ?_, fun hid => ?_⟩, fun hpruned => ?_⟩
  · obtain ⟨after, count, hsweep, -⟩ := sweep_ok (hweighed.compares hsound)
    exact ⟨count, by rw [hsweep]⟩
  · exact hweighed.insert_ok hsound hlabel hplace (hsize.symm ▸ hnode) check
  · obtain ⟨t, ht⟩ := hweighed.exists_weighs hlabel hplace
    obtain ⟨s, ⟨other, hother, hs⟩, hle⟩ := hcovers t ⟨id, hid, ht⟩
    exact ⟨other, hother, by rw [hweighed.dominates_eq hs ht, decide_eq_true hle]⟩
  · have hfront := Tracked.isFront_of_run hnode hpermits hcalls hpruned
    refine ⟨hfront, ?_⟩
    rintro others _ hothers hweighs rfl hpruned' hsame
    rw [(Tracked.isFront_of_run hnode hothers hweighs hpruned').liveTotals_eq, hfront.liveTotals_eq,
      hsame]

/-- Four labels at a node: two of the same totals in different forms, one that uses less at a higher
cost, and one of an infinite cost. -/
def fourLabels : List (Call Datum) :=
  [.create 0 [.int 4] (.float 1.5) none none, .create 0 [.float 4.0] (.float 1.5) none none,
    .create 0 [.int 3] (.int 2) none none, .create 0 [.int 5] (.float (1.0 / 0.0)) none none]

/-- The four labels, each of them checked. -/
def checkedLabels : List (Call Datum) :=
  fourLabels ++ [.insert 0 true, .insert 1 true, .insert 2 true, .insert 3 true]

/-- The four labels in the opposite order, unchecked and then swept. -/
def sweptLabels : List (Call Datum) :=
  fourLabels ++ [.insert 3 false, .insert 2 false, .insert 1 false, .insert 0 false, .sweep 0]

/-- The four labels leave a front when they are checked, and the same live totals when they are
swept. -/
theorem front_fourLabels :
    ((Tracked.ofSize 1).run checkedLabels).IsFront 0 ∧
      ((Tracked.ofSize 1).run sweptLabels).liveTotals 0 =
        ((Tracked.ofSize 1).run checkedLabels).liveTotals 0 := by
  have hchecked : (Tracked.ofSize 1).Permits checkedLabels := by decide +kernel
  have hswept : (Tracked.ofSize 1).Permits sweptLabels := by decide +kernel
  have hweighed : ∀ call ∈ checkedLabels ++ sweptLabels, call.IsWeighed 0 1 := by decide +kernel
  have hall : ((Tracked.ofSize 1).run checkedLabels).checked = true := by decide +kernel
  have hinserted : ((Tracked.ofSize 1).run sweptLabels).inserted.Perm
      ((Tracked.ofSize 1).run checkedLabels).inserted := by decide +kernel
  have hhistory : ((Tracked.ofSize 1).run sweptLabels).pool.history =
      ((Tracked.ofSize 1).run checkedLabels).pool.history := by
    simp [Tracked.run, Tracked.perform, checkedLabels, sweptLabels]
  obtain ⟨hweighed, hweighed'⟩ := List.forall_mem_append.mp hweighed
  obtain ⟨-, -, hfront⟩ := front_of_run (by decide) hchecked hweighed rfl
  obtain ⟨hfront, hsame⟩ := hfront (Or.inl hall)
  exact ⟨hfront, hsame sweptLabels _ hswept hweighed' rfl (Or.inr rfl)
    (Tracked.insertedTotals_congr hhistory hinserted)⟩

end LabelPool

end PatternCovering
