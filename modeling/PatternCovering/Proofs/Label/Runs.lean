import PatternCovering.Proofs.Label.Pool
import Mathlib.Data.List.Pairwise

/-!
# Runs of calls on a label pool

A pool is used by calls: labels are created, inserted, swept and cleared. Beside the pool a run keeps
which labels were inserted since it was last cleared, and whether every insertion was checked. Every
call does no more to live labels and flags than three things: live labels of a node are flagged and
leave it, a label without a flag joins its node, or a label that is not live is flagged. What these
keep, a whole run keeps.

Labels may be incomparable, so that a call fails. An insertion that fails may have taken out live
labels before, and its own label counts as not inserted.
-/

namespace PatternCovering

/-- Entries that are left by a test against all the others spare one another, whichever of two comes
first. -/
theorem pairwise_of_sift {β : Type} {drop : Array β → List β → β → Except Fault Bool}
    {spares : β → β → Prop}
    (hdrop : ∀ kept rest entry, drop kept rest entry = .ok false →
      ∀ other ∈ kept.toList ++ rest, spares other entry)
    (kept : Array β) (ahead : List β)
    (hkept : kept.toList.Pairwise fun first second => spares first second ∧ spares second first)
    (hahead : ∀ entry ∈ kept.toList, ∀ other ∈ ahead, spares other entry)
    (h : (sift drop kept ahead).finished = .ok ()) :
    (sift drop kept ahead).left.toList.Pairwise fun first second =>
      spares first second ∧ spares second first := by
  fun_induction sift drop kept ahead with
  | case1 kept => exact hkept
  | case2 kept entry rest fault _ => cases h
  | case3 kept entry rest _ others ih =>
    refine ih hkept (fun known hknown other hother => ?_) h
    exact hahead known hknown other (List.mem_cons_of_mem _ ((lastFirst_perm rest).mem_iff.mp hother))
  | case4 kept entry rest hfalse ih =>
    have hentry := hdrop kept rest entry hfalse
    refine ih ?_ (fun known hknown other hother => ?_) h
    · rw [Array.toList_push, List.pairwise_append]
      refine ⟨hkept, List.pairwise_singleton _ _, fun known hknown second hsecond => ?_⟩
      rw [List.mem_singleton.mp hsecond]
      exact ⟨hentry known (List.mem_append_left _ hknown),
        hahead known hknown entry List.mem_cons_self⟩
    · rw [Array.toList_push, List.mem_append, List.mem_singleton] at hknown
      rcases hknown with hknown | rfl
      · exact hahead known hknown other (List.mem_cons_of_mem _ hother)
      · exact hentry other (List.mem_append_right _ hother)

namespace LabelPool

variable {α : Type} {pool after : LabelPool Int α} {node id other : Nat} {left : Array Nat}
  {removed : List Nat}

section Settled

/-- Whether a label is live at some node or flagged. -/
def Settled (pool : LabelPool Int α) (id : Nat) : Prop :=
  (∃ node, id ∈ pool.liveAt node) ∨ ∃ label, pool.arena[id]? = some label ∧ label.dominated = true

/-- Labels that leave a node are flagged, and no other label is settled by it. -/
theorem settled_takenOut (hsound : pool.Sound)
    (hperm : (left.toList ++ removed).Perm (pool.liveAt node).toList) (hnode : node < pool.live.size) :
    ((pool.flag removed).setLive node left).Settled other ↔ pool.Settled other := by
  have harena : ((pool.flag removed).setLive node left).arena[other]? =
      pool.arena[other]?.map fun label =>
        if other ∈ removed then { label with dominated := true } else label :=
    getElem?_flag pool removed other
  constructor
  · rintro (⟨place, hlive⟩ | ⟨label, hlabel, hflag⟩)
    · rw [liveAt_takenOut hnode] at hlive
      split at hlive
      · exact Or.inl ⟨node, (hsound.of_left hperm hlive).1⟩
      · exact Or.inl ⟨place, hlive⟩
    · by_cases hremoved : other ∈ removed
      · exact Or.inl ⟨node, mem_liveAt_of_removed hperm hremoved⟩
      · rw [harena] at hlabel
        simp only [if_neg hremoved, Option.map_id'] at hlabel
        exact Or.inr ⟨label, hlabel, hflag⟩
  · rintro (⟨place, hlive⟩ | ⟨label, hlabel, hflag⟩)
    · obtain ⟨label, hlabel, -, -⟩ := hsound.live place other hlive
      by_cases hremoved : other ∈ removed
      · refine Or.inr ⟨{ label with dominated := true }, ?_, rfl⟩
        rw [harena, hlabel, Option.map_some, if_pos hremoved]
      · refine Or.inl ⟨place, ?_⟩
        rw [liveAt_takenOut hnode]
        split
        · next heq =>
          subst heq
          have hmem := hperm.mem_iff.mpr (Array.mem_toList_iff.mpr hlive)
          exact Array.mem_toList_iff.mp ((List.mem_append.mp hmem).resolve_right hremoved)
        · exact hlive
    · refine Or.inr ⟨if other ∈ removed then { label with dominated := true } else label, ?_, ?_⟩
      · rw [harena, hlabel, Option.map_some]
      · split
        · rfl
        · exact hflag

/-- A label that joins is settled. -/
theorem settled_addLive (hnode : node < pool.live.size) :
    (pool.addLive node id).Settled other ↔ pool.Settled other ∨ other = id := by
  constructor
  · rintro (⟨place, hlive⟩ | hflagged)
    · rw [liveAt_addLive hnode] at hlive
      split at hlive
      · exact (Array.mem_push.mp hlive).imp_left fun hlive => Or.inl ⟨node, hlive⟩
      · exact Or.inl (Or.inl ⟨place, hlive⟩)
    · exact Or.inl (Or.inr hflagged)
  · rintro ((⟨place, hlive⟩ | hflagged) | rfl)
    · refine Or.inl ⟨place, ?_⟩
      rw [liveAt_addLive hnode]
      split
      · next heq => exact Array.mem_push_of_mem id (heq ▸ hlive)
      · exact hlive
    · exact Or.inr hflagged
    · refine Or.inl ⟨node, ?_⟩
      rw [liveAt_addLive hnode, if_pos rfl]
      exact Array.mem_push_self

/-- A label that is flagged is settled. -/
theorem settled_flag (hid : id < pool.numCreated) :
    (pool.flag [id]).Settled other ↔ pool.Settled other ∨ other = id := by
  have hmem : other ∈ [id] ↔ other = id := List.mem_singleton
  simp only [Settled, getElem?_flag, hmem]
  constructor
  · rintro (hlive | ⟨label, hlabel, hflag⟩)
    · exact Or.inl (Or.inl hlive)
    · by_cases hother : other = id
      · exact Or.inr hother
      · simp only [if_neg hother, Option.map_id'] at hlabel
        exact Or.inl (Or.inr ⟨label, hlabel, hflag⟩)
  · rintro ((hlive | ⟨label, hlabel, hflag⟩) | rfl)
    · exact Or.inl hlive
    · refine Or.inr ⟨if other = id then { label with dominated := true } else label, ?_, ?_⟩
      · rw [hlabel, Option.map_some]
      · split
        · rfl
        · exact hflag
    · refine Or.inr ⟨{ pool.arena[other] with dominated := true }, ?_, rfl⟩
      rw [Array.getElem?_eq_getElem hid, Option.map_some, if_pos rfl]

end Settled

section Tally

/-- The number of flagged labels. -/
def numFlagged (pool : LabelPool Int α) : Nat := pool.arena.toList.countP (·.dominated)

/-- Labels are flagged one after the other. -/
theorem flag_cons (id : Nat) (ids : List Nat) :
    pool.flag (id :: ids) = (pool.flag [id]).flag ids := by
  simp only [flag, List.foldl_cons, List.foldl_nil, List.length_cons, List.length_nil]
  congr 1
  omega

/-- Flagging labels that had no flag counts each of them. -/
theorem numFlagged_flag {ids : List Nat} (hnodup : ids.Nodup)
    (hids : ∀ id ∈ ids, ∃ label, pool.arena[id]? = some label ∧ label.dominated = false) :
    (pool.flag ids).numFlagged = pool.numFlagged + ids.length := by
  induction ids generalizing pool with
  | nil => rfl
  | cons id rest ih =>
    obtain ⟨hnotin, hnodup⟩ := List.nodup_cons.mp hnodup
    obtain ⟨label, hlabel, hflag⟩ := hids id List.mem_cons_self
    have hone : (pool.flag [id]).numFlagged = pool.numFlagged + 1 := by
      obtain ⟨hlt, rfl⟩ := Array.getElem?_eq_some_iff.mp hlabel
      have harena : (pool.flag [id]).arena.toList =
          pool.arena.toList.set id { pool.arena[id] with dominated := true } := by
        simp [flag, List.modify_eq_set_getElem?, hlt]
      rw [numFlagged, numFlagged, harena, List.countP_set (by simpa using hlt)]
      simp [hflag]
    have hrest : ∀ other ∈ rest, ∃ label, (pool.flag [id]).arena[other]? = some label ∧
        label.dominated = false := by
      intro other hother
      obtain ⟨known, hknown, hunflagged⟩ := hids other (List.mem_cons_of_mem _ hother)
      refine ⟨known, ?_, hunflagged⟩
      rw [getElem?_flag, hknown, Option.map_some, if_neg]
      exact fun hmem => hnotin (List.mem_singleton.mp hmem ▸ hother)
    rw [flag_cons, ih hnodup hrest, hone, List.length_cons]
    omega

end Tally

section Creating

variable {place : Int} {resources : List α} {cost : α} {predecessor arc : Option Int}

/-- Creating a label changes no label of the arena. -/
theorem getElem?_create {label : Label Int α} :
    (pool.create place resources cost predecessor arc).arena[id]? = some label ↔
      pool.arena[id]? = some label ∨ (id = pool.numCreated ∧ label =
        { id := (pool.numCreated : Int), node := place, resources, cost, predecessor, arc }) := by
  simp only [create, numCreated, Array.getElem?_push]
  split
  · next heq => simp [heq, Position.ofNat, Position.ofInt, eq_comm]
  · next hne => simp [hne]

/-- A new label is not settled yet. -/
theorem settled_create :
    (pool.create place resources cost predecessor arc).Settled other ↔ pool.Settled other := by
  refine or_congr_right ⟨?_, ?_⟩
  · rintro ⟨label, hlabel, hflag⟩
    rcases getElem?_create.mp hlabel with hold | ⟨-, rfl⟩
    · exact ⟨label, hold, hflag⟩
    · cases hflag
  · rintro ⟨label, hlabel, hflag⟩
    exact ⟨label, getElem?_create.mpr (Or.inl hlabel), hflag⟩

/-- A new label has no flag. -/
theorem numFlagged_create :
    (pool.create place resources cost predecessor arc).numFlagged = pool.numFlagged := by
  simp [numFlagged, create]

/-- A pool stays sound when a label is created. -/
theorem Sound.create (h : pool.Sound) :
    (pool.create place resources cost predecessor arc).Sound := by
  refine ⟨fun node id hid => ?_, h.nodup⟩
  obtain ⟨label, hlabel, hlabels⟩ := h.live node id hid
  exact ⟨label, getElem?_create.mpr (Or.inl hlabel), hlabels⟩

end Creating

section Counting

/-- A label is listed if and only if it is live at some node. -/
theorem mem_flatMap_live :
    id ∈ pool.live.toList.flatMap Array.toList ↔ ∃ node, id ∈ pool.liveAt node := by
  rw [List.mem_flatMap]
  constructor
  · rintro ⟨ids, hids, hid⟩
    obtain ⟨node, hnode⟩ := List.mem_iff_getElem?.mp hids
    rw [Array.getElem?_toList] at hnode
    exact ⟨node, by simpa [liveAt, hnode] using hid⟩
  · rintro ⟨node, hid⟩
    rcases hids : pool.live[node]? with - | ids
    · simp [liveAt, hids] at hid
    · refine ⟨ids, Array.mem_toList_iff.mpr (Array.mem_of_getElem? hids), ?_⟩
      simpa [liveAt, hids] using hid

/-- No label is listed twice in a sound pool, at one node or at two. -/
theorem Sound.nodup_flatMap (h : pool.Sound) :
    (pool.live.toList.flatMap Array.toList).Nodup := by
  have hlive : ∀ (node : Nat) (hnode : node < pool.live.toList.length),
      pool.liveAt node = pool.live.toList[node] := by
    intro node hnode
    simp [liveAt, Array.getElem?_eq_getElem (show node < pool.live.size by simpa using hnode)]
  refine List.nodup_flatMap.mpr ⟨fun ids hids => ?_, List.pairwise_iff_getElem.mpr ?_⟩
  · obtain ⟨node, hnode, rfl⟩ := List.mem_iff_getElem.mp hids
    rw [← hlive node hnode]
    exact h.nodup node
  · intro first second hfirst hsecond hlt id hid hid'
    rw [Array.mem_toList_iff, ← hlive first hfirst] at hid
    rw [Array.mem_toList_iff, ← hlive second hsecond] at hid'
    obtain ⟨label, hlabel, hat, -⟩ := h.live first id hid
    obtain ⟨label', hlabel', hat', -⟩ := h.live second id hid'
    obtain rfl := Option.some.inj (hlabel.symm.trans hlabel')
    omega

/-- Only labels of the arena are live or flagged. -/
theorem Sound.lt_of_settled (h : pool.Sound) (hid : pool.Settled id) : id < pool.numCreated := by
  rcases hid with ⟨node, hlive⟩ | ⟨label, hlabel, -⟩
  · obtain ⟨label, hlabel, -⟩ := h.live node id hlive
    exact (Array.getElem?_eq_some_iff.mp hlabel).1
  · exact (Array.getElem?_eq_some_iff.mp hlabel).1

/-- The number of live labels is the number of labels listed. -/
theorem numLive_eq (pool : LabelPool Int α) :
    pool.numLive = (pool.live.toList.flatMap Array.toList).length := by
  rw [numLive]
  induction pool.live.toList with
  | nil => rfl
  | cons ids rest ih => simp [total, ih]

/-- The labels of a list that meet a test, counted by their places. -/
theorem length_filter_range {β : Type} (test : β → Bool) (entries : List β) :
    ((List.range entries.length).filter fun i => entries[i]?.any test).length =
      entries.countP test := by
  rw [← List.countP_eq_length_filter]
  induction entries with
  | nil => rfl
  | cons entry rest ih =>
    rw [List.length_cons, List.range_succ_eq_map, List.countP_cons, List.countP_map,
      List.countP_cons, ← ih]
    rfl

/-- Every label is live, flagged or neither, and no two of these. -/
theorem Sound.numCreated_eq {inserted : List Nat} (h : pool.Sound)
    (hinserted : ∀ id, id ∈ inserted ↔ pool.Settled id) :
    pool.numCreated = pool.numLive + pool.numFlagged +
      ((List.range pool.numCreated).filter (· ∉ inserted)).length := by
  have hflagged : ((List.range pool.numCreated).filter fun id =>
      pool.arena.toList[id]?.any (·.dominated)).length = pool.numFlagged :=
    length_filter_range _ pool.arena.toList
  generalize hflags : ((List.range pool.numCreated).filter fun id =>
      pool.arena.toList[id]?.any (·.dominated)) = flags at hflagged
  have hflag : ∀ id, id ∈ flags ↔ ∃ label, pool.arena[id]? = some label ∧ label.dominated = true := by
    intro id
    rw [← hflags, List.mem_filter, List.mem_range, Array.getElem?_toList, Option.any_eq_true]
    constructor
    · exact fun hid => hid.2
    · rintro ⟨label, hlabel, hdominated⟩
      exact ⟨(Array.getElem?_eq_some_iff.mp hlabel).1, label, hlabel, hdominated⟩
  have hperm : (List.range pool.numCreated).Perm (pool.live.toList.flatMap Array.toList ++ flags ++
      (List.range pool.numCreated).filter (· ∉ inserted)) := by
    refine (List.perm_ext_iff_of_nodup List.nodup_range ?_).mpr fun id => ?_
    · refine (h.nodup_flatMap.append (hflags ▸ List.nodup_range.filter _) ?_).append
        (List.nodup_range.filter _) ?_
      · intro id hlive hid
        obtain ⟨node, hlive⟩ := mem_flatMap_live.mp hlive
        obtain ⟨label, hlabel, hdominated⟩ := (hflag id).mp hid
        obtain ⟨known, hknown, -, hunflagged⟩ := h.live node id hlive
        obtain rfl := Option.some.inj (hlabel.symm.trans hknown)
        simp [hdominated] at hunflagged
      · intro id hid hnever
        refine absurd ((hinserted id).mpr ?_) (of_decide_eq_true (List.mem_filter.mp hnever).2)
        exact (List.mem_append.mp hid).imp mem_flatMap_live.mp (hflag id).mp
    · rw [List.mem_append, List.mem_append, mem_flatMap_live, hflag, List.mem_filter, List.mem_range,
        decide_eq_true_eq, hinserted]
      refine ⟨fun hid => ?_, fun hid => ?_⟩
      · exact (em (pool.Settled id)).imp_right fun hnever => ⟨hid, hnever⟩
      · exact hid.elim h.lt_of_settled And.left
  have hlength := hperm.length_eq
  rw [List.length_append, List.length_append, List.length_range, hflagged, ← numLive_eq] at hlength
  exact hlength

end Counting

variable [Quantity α]

/-- Live labels that do not dominate one another still do not when some of them leave. -/
theorem Undominated.mono (h : pool.Undominated node) (hhistory : after.history = pool.history)
    (hlive : ∀ id ∈ after.liveAt node, id ∈ pool.liveAt node) : after.Undominated node := by
  intro first hfirst second hsecond hne
  rw [dominates_congr hhistory]
  exact h first (hlive first hfirst) second (hlive second hsecond) hne

/-- Live labels that do not dominate one another still do not when another label is created. -/
theorem Undominated.create {place : Int} {resources : List α} {cost : α} {predecessor arc : Option Int}
    (h : pool.Undominated node) (hsound : pool.Sound) :
    (pool.create place resources cost predecessor arc).Undominated node := by
  have hlabel : ∀ id ∈ pool.liveAt node,
      (pool.create place resources cost predecessor arc).arena[id]? = pool.arena[id]? := by
    intro id hid
    obtain ⟨label, hlabel, -⟩ := hsound.live node id hid
    rw [hlabel]
    exact getElem?_create.mpr (Or.inl hlabel)
  intro first hfirst second hsecond hne
  rw [dominates, hlabel first hfirst, hlabel second hsecond]
  exact h first hfirst second hsecond hne

/-- A checked insertion that fails has at most flagged live labels of the node, which have left it;
an insertion without a check does not fail. -/
theorem of_insert_fails {label : Label Int α} {check : Bool} {fault : Fault}
    (hlabel : pool.arena[id]? = some label) (hplace : label.node = (node : Int))
    (hnode : node < pool.live.size) (h : pool.insert id check = (after, .error fault)) :
    check = true ∧ ∃ left removed, (left.toList ++ removed).Perm (pool.liveAt node).toList ∧
      after = (pool.flag removed).setLive node left := by
  simp only [insert, hlabel, hplace, nodeAt_natCast hnode] at h
  cases check with
  | false => simp at h
  | true =>
    simp only [if_true, settle] at h
    cases hany : pool.anyDominates (pool.liveAt node).toList id with
    | error fault =>
      simp only [hany, Prod.mk.injEq] at h
      exact ⟨rfl, pool.liveAt node, [], by simp, by simp [← h.1]⟩
    | ok dominated =>
      cases dominated with
      | true => simp [hany] at h
      | false =>
        have hperm := sift_perm (fun _ _ other => pool.dominates id other) #[]
          (pool.liveAt node).toList
        simp only [hany] at h
        split at h
        · exact ⟨rfl, _, _, by simpa using hperm, (Prod.mk.inj h).1.symm⟩
        · simp at h

/-- A sweep flags live labels of the node, which leave it, and if it ends, the labels that are left do
not dominate one another. -/
theorem sweep_cases (pool : LabelPool Int α) (node : Nat) :
    ∃ left removed, (left.toList ++ removed).Perm (pool.liveAt node).toList ∧
      (pool.sweep node).1 = (pool.flag removed).setLive node left ∧
      ∀ count, (pool.sweep node).2 = .ok count → left.toList.Pairwise fun first second =>
        pool.dominates first second = .ok false ∧ pool.dominates second first = .ok false := by
  rw [sweep_eq]
  refine ⟨(pool.swept node).left, (pool.swept node).removed, sift_perm _ #[] _, rfl,
    fun count hcount => ?_⟩
  obtain ⟨_, hfinished, -⟩ := map_eq_ok.mp hcount
  exact pairwise_of_sift (fun kept rest entry hfalse => anyDominates_false.mp hfalse) _ _ (by simp)
    (by simp) hfinished

/-- After a sweep that ends, live labels at the node do not dominate one another. -/
theorem undominated_sweep (hnode : node < pool.live.size) {count : Nat}
    (h : (pool.sweep node).2 = .ok count) : (pool.sweep node).1.Undominated node := by
  obtain ⟨left, removed, -, hsweep, hleft⟩ := pool.sweep_cases node
  have hhistory : (pool.sweep node).1.history = pool.history := by simp [hsweep]
  intro first hfirst second hsecond hne
  rw [hsweep, liveAt_takenOut hnode, if_pos rfl] at hfirst hsecond
  rw [dominates_congr hhistory]
  have hsymm : Std.Symm fun first second =>
      pool.dominates first second = .ok false ∧ pool.dominates second first = .ok false :=
    ⟨fun _ _ => And.symm⟩
  exact ((hleft count h).forall (Array.mem_toList_iff.mpr hfirst)
    (Array.mem_toList_iff.mpr hsecond) hne).1

section Order

/-- Whether the books of a pool are in order, given which of its labels were inserted. -/
structure InOrder (pool : LabelPool Int α) (inserted : List Nat) : Prop where
  sound : pool.Sound
  placed : ∀ (id : Nat) label, pool.history[id]? = some label → label.id = (id : Int) ∧
    ∃ node < pool.live.size, label.node = (node : Int)
  settled : ∀ id, id ∈ inserted ↔ pool.Settled id
  tally : pool.numDominated = pool.numFlagged

variable {inserted : List Nat}

namespace InOrder

omit [Quantity α] in
/-- A label that was not inserted is not live, has no flag and stands at a node. -/
theorem of_not_mem (h : pool.InOrder inserted) (hid : id < pool.numCreated) (hnew : id ∉ inserted) :
    (∀ place, id ∉ pool.liveAt place) ∧ ∃ label, pool.arena[id]? = some label ∧
      label.dominated = false ∧ ∃ node < pool.live.size, label.node = (node : Int) := by
  rw [h.settled, Settled, not_or] at hnew
  have hlabel : pool.arena[id]? = some pool.arena[id] := Array.getElem?_eq_getElem hid
  refine ⟨fun place hlive => hnew.1 ⟨place, hlive⟩, pool.arena[id], hlabel, ?_, ?_⟩
  · exact Bool.eq_false_iff.mpr fun hflag => hnew.2 ⟨_, hlabel, hflag⟩
  · exact (h.placed id pool.arena[id].unflagged (by rw [getElem?_history, hlabel]; rfl)).2

omit [Quantity α] in
/-- The books stay in order when live labels of a node are flagged and leave it. -/
theorem takeOut (h : pool.InOrder inserted) (hnode : node < pool.live.size)
    (hperm : (left.toList ++ removed).Perm (pool.liveAt node).toList) :
    ((pool.flag removed).setLive node left).InOrder inserted where
  sound := h.sound.takeOut hperm hnode
  placed := by
    have hsize : ((pool.flag removed).setLive node left).live.size = pool.live.size := by
      simp [setLive, flag]
    rw [hsize, history_setLive, history_flag]
    exact h.placed
  settled id := (h.settled id).trans (settled_takenOut h.sound hperm hnode).symm
  tally := by
    have hlist : (left.toList ++ removed).Nodup := hperm.nodup_iff.mpr (h.sound.nodup node)
    have hflags := numFlagged_flag (List.nodup_append.mp hlist).2.1 fun id hid => by
      obtain ⟨label, hlabel, -, hflag⟩ := h.sound.live node id (mem_liveAt_of_removed hperm hid)
      exact ⟨label, hlabel, hflag⟩
    change pool.numDominated + removed.length = (pool.flag removed).numFlagged
    rw [hflags, h.tally]

omit [Quantity α] in
/-- The books stay in order when a label that was not inserted joins its node. -/
theorem join {label : Label Int α} (h : pool.InOrder inserted) (hnode : node < pool.live.size)
    (hlabel : pool.arena[id]? = some label) (hplace : label.node = (node : Int))
    (hflag : label.dominated = false) (hfresh : ∀ place, id ∉ pool.liveAt place) :
    (pool.addLive node id).InOrder (inserted ++ [id]) where
  sound := h.sound.join hlabel hplace hflag hnode hfresh
  placed := by
    have hsize : (pool.addLive node id).live.size = pool.live.size := by simp [addLive]
    rw [hsize, history_addLive]
    exact h.placed
  settled other := by
    rw [settled_addLive hnode, List.mem_append, List.mem_singleton, h.settled]
  tally := h.tally

omit [Quantity α] in
/-- The books stay in order when a label that was not inserted is flagged. -/
theorem turnAway {label : Label Int α} (h : pool.InOrder inserted)
    (hlabel : pool.arena[id]? = some label) (hflag : label.dominated = false)
    (hfresh : ∀ place, id ∉ pool.liveAt place) :
    (pool.flag [id]).InOrder (inserted ++ [id]) where
  sound := h.sound.turnAway hfresh
  placed := by
    rw [history_flag]
    exact h.placed
  settled other := by
    rw [settled_flag (Array.getElem?_eq_some_iff.mp hlabel).1, List.mem_append, List.mem_singleton,
      h.settled]
  tally := by
    have hflags := numFlagged_flag (List.nodup_singleton id) fun other hother => by
      rw [List.mem_singleton.mp hother]
      exact ⟨label, hlabel, hflag⟩
    rw [hflags, ← h.tally]
    rfl

/-- The books stay in order when a label is inserted that was not inserted before; if the insertion
fails, the label still counts as such. -/
theorem insert (h : pool.InOrder inserted) (hid : id < pool.numCreated) (hnew : id ∉ inserted)
    (check : Bool) :
    (pool.insert id check).1.InOrder
      (match (pool.insert id check).2 with
        | .ok _ => inserted ++ [id]
        | .error _ => inserted) := by
  obtain ⟨hfresh, label, hlabel, hflag, node, hnode, hplace⟩ := h.of_not_mem hid hnew
  rcases hinsert : pool.insert id check with ⟨after, fault | answer⟩
  · obtain ⟨-, left, removed, hperm, rfl⟩ := of_insert_fails hlabel hplace hnode hinsert
    exact h.takeOut hnode hperm
  · obtain ⟨-, -, rfl⟩ | ⟨-, -, -, rfl⟩ | ⟨-, -, left, removed, hadmits, rfl⟩ :=
      insert_at_cases hlabel hplace hnode hinsert
    · exact h.join hnode hlabel hplace hflag hfresh
    · exact h.turnAway hlabel hflag hfresh
    · have hkept : id ∉ removed := fun hmem =>
        hfresh node (mem_liveAt_of_removed hadmits.perm hmem)
      have hknown : (pool.flag removed).arena[id]? = some label := by
        rw [getElem?_flag, hlabel, Option.map_some, if_neg hkept]
      refine (h.takeOut hnode hadmits.perm).join (by simpa [setLive, flag] using hnode) hknown hplace
        hflag fun place hmem => ?_
      rw [liveAt_takenOut hnode] at hmem
      split at hmem
      · exact hfresh node (h.sound.of_left hadmits.perm hmem).1
      · exact hfresh place hmem

/-- The books stay in order when a node is swept. -/
theorem sweep (h : pool.InOrder inserted) (hnode : node < pool.live.size) :
    (pool.sweep node).1.InOrder inserted := by
  obtain ⟨left, removed, hperm, hsweep, -⟩ := pool.sweep_cases node
  rw [hsweep]
  exact h.takeOut hnode hperm

omit [Quantity α] in
/-- The books stay in order when a label is created at a node. -/
theorem create (h : pool.InOrder inserted) (hnode : node < pool.live.size) (resources : List α)
    (cost : α) (predecessor arc : Option Int) :
    (pool.create (node : Int) resources cost predecessor arc).InOrder inserted where
  sound := h.sound.create
  placed id label hlabel := by
    rw [history_create, List.getElem?_append] at hlabel
    split at hlabel
    · exact h.placed id label hlabel
    · next hge =>
      rw [length_history] at hge hlabel
      obtain ⟨hlt, rfl⟩ := List.getElem?_eq_some_iff.mp hlabel
      have hid : id = pool.numCreated := by
        rw [List.length_singleton] at hlt
        omega
      subst hid
      exact ⟨by simp [Position.ofNat, Position.ofInt], node, hnode, by simp⟩
  settled id := (h.settled id).trans settled_create.symm
  tally := h.tally.trans numFlagged_create.symm

omit [Quantity α] in
/-- The books of a pool without labels are in order. -/
theorem of_empty {numNodes : Int} {size : Nat} :
    (⟨numNodes, #[], Array.replicate size #[], 0⟩ : LabelPool Int α).InOrder [] := by
  have hlive : ∀ node, (⟨numNodes, #[], Array.replicate size #[], 0⟩ : LabelPool Int α).liveAt node =
      #[] := by
    intro node
    rw [liveAt, Array.getElem?_replicate]
    split <;> rfl
  refine ⟨⟨fun node id hid => ?_, fun node => ?_⟩, fun id label hlabel => ?_, fun id => ?_, rfl⟩
  · simp [hlive] at hid
  · simp [hlive]
  · simp [history] at hlabel
  · simp [Settled, hlive]

end InOrder

end Order

/-- A call on a pool. -/
inductive Call (α : Type) where
  | create (node : Nat) (resources : List α) (cost : α) (predecessor arc : Option Int)
  | insert (id : Nat) (check : Bool)
  | sweep (node : Nat)
  | clear

/-- A pool with what was asked of it since it was last cleared. -/
structure Tracked (α : Type) where
  pool : LabelPool Int α
  /-- The labels whose insertion was answered, in the order of their insertion. -/
  inserted : List Nat := []
  /-- Whether every insertion was to be checked. -/
  checked : Bool := true

namespace Tracked

/-- A new pool of a number of nodes. -/
def ofSize (numNodes : Nat) : Tracked α := { pool := .ofSize numNodes }

/-- The pool after a call. -/
def perform (tracked : Tracked α) : Call α → Tracked α
  | .create node resources cost predecessor arc =>
    { tracked with pool := tracked.pool.create (node : Int) resources cost predecessor arc }
  | .insert id check =>
    { pool := (tracked.pool.insert id check).1
      inserted :=
        match (tracked.pool.insert id check).2 with
        | .ok _ => tracked.inserted ++ [id]
        | .error _ => tracked.inserted
      checked := tracked.checked && check }
  | .sweep node => { tracked with pool := (tracked.pool.sweep node).1 }
  | .clear => { pool := tracked.pool.clear }

/-- The pool after some calls, one after the other. -/
def run (tracked : Tracked α) (calls : List (Call α)) : Tracked α := calls.foldl perform tracked

/-- Whether a call names a node of the pool or a label of it that was not inserted yet. -/
def Allows (tracked : Tracked α) : Call α → Prop
  | .create node _ _ _ _ => node < tracked.pool.live.size
  | .insert id _ => id < tracked.pool.numCreated ∧ id ∉ tracked.inserted
  | .sweep node => node < tracked.pool.live.size
  | .clear => True

/-- Whether every one of some calls is allowed when its turn comes. -/
def Permits (tracked : Tracked α) : List (Call α) → Prop
  | [] => True
  | call :: rest => tracked.Allows call ∧ (tracked.perform call).Permits rest

variable {tracked : Tracked α} {call : Call α} {calls later : List (Call α)}

instance (tracked : Tracked α) (call : Call α) : Decidable (tracked.Allows call) :=
  match call with
  | .create node _ _ _ _ => inferInstanceAs (Decidable (node < tracked.pool.live.size))
  | .insert id _ => inferInstanceAs (Decidable (id < tracked.pool.numCreated ∧ id ∉ tracked.inserted))
  | .sweep node => inferInstanceAs (Decidable (node < tracked.pool.live.size))
  | .clear => inferInstanceAs (Decidable True)

instance decidablePermits (tracked : Tracked α) (calls : List (Call α)) :
    Decidable (tracked.Permits calls) :=
  match calls with
  | [] => inferInstanceAs (Decidable True)
  | call :: rest =>
    have := decidablePermits (tracked.perform call) rest
    inferInstanceAs (Decidable (tracked.Allows call ∧ (tracked.perform call).Permits rest))

/-- A run goes on where it was left. -/
theorem run_append (tracked : Tracked α) (calls later : List (Call α)) :
    tracked.run (calls ++ later) = (tracked.run calls).run later :=
  List.foldl_append

/-- Calls are permitted one part after the other. -/
theorem permits_append :
    tracked.Permits (calls ++ later) ↔
      tracked.Permits calls ∧ (tracked.run calls).Permits later := by
  induction calls generalizing tracked with
  | nil => simp [Permits, run]
  | cons call rest ih => simp [Permits, ih, run, and_assoc]

/-- No call changes the number of nodes. -/
theorem size_live_perform (h : tracked.pool.InOrder tracked.inserted) (hallows : tracked.Allows call) :
    (tracked.perform call).pool.live.size = tracked.pool.live.size := by
  cases call with
  | create => rfl
  | insert id check =>
    obtain ⟨-, label, hlabel, -, node, hnode, hplace⟩ := h.of_not_mem hallows.1 hallows.2
    rw [perform]
    rcases hinsert : tracked.pool.insert id check with ⟨after, fault | answer⟩
    · obtain ⟨-, left, removed, -, rfl⟩ := of_insert_fails hlabel hplace hnode hinsert
      simp [setLive, flag]
    · exact size_live_insert hlabel hplace hnode hinsert
  | sweep node =>
    obtain ⟨left, removed, -, hsweep, -⟩ := tracked.pool.sweep_cases node
    simp [perform, hsweep, setLive, flag]
  | clear => simp [perform, clear]

/-- Whether the books of a pool are in order, and live labels do not dominate one another as long as
every insertion was checked. -/
structure Keeps (tracked : Tracked α) : Prop where
  inOrder : tracked.pool.InOrder tracked.inserted
  undominated : tracked.checked = true → ∀ node, tracked.pool.Undominated node

/-- A new pool is in order. -/
theorem keeps_ofSize (numNodes : Nat) : (ofSize numNodes : Tracked α).Keeps := by
  have hempty : (ofSize numNodes : Tracked α).pool.InOrder [] := InOrder.of_empty
  refine ⟨hempty, fun _ node first hfirst => ?_⟩
  cases (hempty.settled first).mpr (Or.inl ⟨node, hfirst⟩)

/-- What a call keeps. -/
theorem Keeps.perform (h : tracked.Keeps) (hallows : tracked.Allows call) :
    (tracked.perform call).Keeps := by
  cases call with
  | create node resources cost predecessor arc =>
    exact ⟨h.inOrder.create hallows resources cost predecessor arc,
      fun hchecked place => (h.undominated hchecked place).create h.inOrder.sound⟩
  | insert id check =>
    refine ⟨h.inOrder.insert hallows.1 hallows.2 check, fun hchecked place => ?_⟩
    obtain ⟨hchecked, hcheck⟩ := Bool.and_eq_true_iff.mp hchecked
    obtain ⟨-, label, hlabel, -, node, hnode, hplace⟩ := h.inOrder.of_not_mem hallows.1 hallows.2
    rw [Tracked.perform]
    rcases hinsert : tracked.pool.insert id check with ⟨after, fault | answer⟩
    · obtain ⟨-, left, removed, hperm, rfl⟩ := of_insert_fails hlabel hplace hnode hinsert
      refine (h.undominated hchecked place).mono (by simp) fun other hother => ?_
      rw [liveAt_takenOut hnode] at hother
      split at hother
      · next heq => exact heq ▸ (h.inOrder.sound.of_left hperm hother).1
      · exact hother
    · exact (h.undominated hchecked place).insert hlabel hplace hnode hinsert hcheck
  | sweep node =>
    refine ⟨h.inOrder.sweep hallows, fun hchecked place => ?_⟩
    obtain ⟨left, removed, hperm, hsweep, -⟩ := tracked.pool.sweep_cases node
    refine (h.undominated hchecked place).mono (history_sweep _ _) fun other hother => ?_
    rw [Tracked.perform, hsweep, liveAt_takenOut hallows] at hother
    split at hother
    · next heq => exact heq ▸ (h.inOrder.sound.of_left hperm hother).1
    · exact hother
  | clear =>
    have hempty : tracked.pool.clear.InOrder [] := InOrder.of_empty
    refine ⟨hempty, fun _ node first hfirst => ?_⟩
    cases (hempty.settled first).mpr (Or.inl ⟨node, hfirst⟩)

/-- What a run keeps. -/
theorem Keeps.run (h : tracked.Keeps) (hpermits : tracked.Permits calls) :
    (tracked.run calls).Keeps ∧ (tracked.run calls).pool.live.size = tracked.pool.live.size := by
  induction calls generalizing tracked with
  | nil => exact ⟨h, rfl⟩
  | cons call rest ih =>
    obtain ⟨hkeeps, hsize⟩ := ih (h.perform hpermits.1) hpermits.2
    exact ⟨hkeeps, hsize.trans (size_live_perform h.inOrder hpermits.1)⟩

end Tracked

/-- Whether the labels of a pool are found in another one, with nothing changed but flags that were
set. -/
def Persists (pool after : LabelPool Int α) : Prop :=
  ∀ (id : Nat) (label : Label Int α), pool.arena[id]? = some label → ∃ flag,
    after.arena[id]? = some { label with dominated := flag } ∧ (label.dominated = true → flag = true)

namespace Persists

omit [Quantity α] in
/-- Labels persist where nothing has changed. -/
theorem refl (pool : LabelPool Int α) : pool.Persists pool :=
  fun _ label hlabel => ⟨label.dominated, hlabel, id⟩

omit [Quantity α] in
/-- Labels persist from one pool to the next. -/
theorem trans {middle : LabelPool Int α} (h : pool.Persists middle) (hafter : middle.Persists after) :
    pool.Persists after := by
  intro id label hlabel
  obtain ⟨flag, hmiddle, hset⟩ := h id label hlabel
  obtain ⟨flag', hlast, hset'⟩ := hafter id _ hmiddle
  exact ⟨flag', hlast, fun hflag => hset' (hset hflag)⟩

omit [Quantity α] in
/-- Labels persist when some of them are flagged. -/
theorem of_flag (ids : List Nat) (harena : after.arena = (pool.flag ids).arena) :
    pool.Persists after := by
  intro id label hlabel
  rw [harena, getElem?_flag, hlabel, Option.map_some]
  split
  · exact ⟨true, rfl, fun _ => rfl⟩
  · exact ⟨label.dominated, rfl, fun hflag => hflag⟩

/-- Labels persist when another one is inserted. -/
theorem insert (pool : LabelPool Int α) (id : Nat) (check : Bool) :
    pool.Persists (pool.insert id check).1 := by
  simp only [LabelPool.insert, settle]
  repeat' split
  all_goals first | exact refl pool | exact of_flag [] rfl | exact of_flag _ rfl

/-- Labels persist under every call but the one that clears the pool. -/
theorem perform {tracked : Tracked α} {call : Call α} (h : call ≠ .clear) :
    tracked.pool.Persists (tracked.perform call).pool := by
  cases call with
  | create =>
    intro id label hlabel
    exact ⟨label.dominated, getElem?_create.mpr (Or.inl hlabel), fun hflag => hflag⟩
  | insert id check => exact insert tracked.pool id check
  | sweep node => exact of_flag _ rfl
  | clear => exact absurd rfl h

/-- Labels persist until the pool is cleared. -/
theorem run {tracked : Tracked α} {calls : List (Call α)} (h : Call.clear ∉ calls) :
    tracked.pool.Persists (tracked.run calls).pool := by
  induction calls generalizing tracked with
  | nil => exact refl tracked.pool
  | cons call rest ih =>
    rw [List.mem_cons, not_or] at h
    exact (perform (Ne.symm h.1)).trans (ih h.2)

end Persists

/-- What holds of a pool at any point of a run: which labels are live and which are flagged, and how
many of each there are. -/
structure Tracked.IsFaithful (tracked : Tracked α) : Prop where
  /-- A live label stands at its node and has no flag. -/
  live : ∀ (node id : Nat), id ∈ tracked.pool.liveAt node → ∃ label,
    tracked.pool.arena[id]? = some label ∧ label.id = (id : Int) ∧ label.node = (node : Int) ∧
      label.dominated = false
  /-- No label is listed twice, at one node or at two. -/
  nodup : (tracked.pool.live.toList.flatMap Array.toList).Nodup
  /-- An inserted label is live or flagged. -/
  inserted : ∀ id ∈ tracked.inserted, (∃ node, id ∈ tracked.pool.liveAt node) ∨
    ∃ label, tracked.pool.arena[id]? = some label ∧ label.dominated = true
  numDominated_eq : tracked.pool.numDominated =
    (tracked.pool.arena.toList.filter (·.dominated)).length
  /-- A label is live, flagged or was never inserted. -/
  numCreated_eq : tracked.pool.numCreated = tracked.pool.numLive + tracked.pool.numDominated +
    ((List.range tracked.pool.numCreated).filter (· ∉ tracked.inserted)).length
  /-- As long as every insertion is checked, live labels do not dominate one another. -/
  undominated : tracked.checked = true → ∀ node, tracked.pool.Undominated node

/-- A pool that is kept in order is faithful. -/
theorem Tracked.Keeps.isFaithful {tracked : Tracked α} (h : tracked.Keeps) : tracked.IsFaithful where
  live node id hid := by
    obtain ⟨label, hlabel, hat, hflag⟩ := h.inOrder.sound.live node id hid
    have hplaced := h.inOrder.placed id label.unflagged (by rw [getElem?_history, hlabel]; rfl)
    exact ⟨label, hlabel, hplaced.1, hat, hflag⟩
  nodup := h.inOrder.sound.nodup_flatMap
  inserted id hid := (h.inOrder.settled id).mp hid
  numDominated_eq := h.inOrder.tally.trans List.countP_eq_length_filter
  numCreated_eq := by
    rw [h.inOrder.tally]
    exact h.inOrder.sound.numCreated_eq h.inOrder.settled
  undominated := h.undominated

/-- A pool that is used by any run of calls is faithful throughout, whatever the costs and the
resources of its labels are: until the pool is cleared, labels stay as they were created but for flags
that are set, and after a sweep of a node live labels there do not dominate one another. A sweep fails
only where live labels of its node cannot be compared. -/
theorem faithful_of_run {numNodes : Nat} {calls later : List (Call α)} {tracked : Tracked α}
    (hpermits : (Tracked.ofSize numNodes).Permits (calls ++ later))
    (hrun : (Tracked.ofSize numNodes).run calls = tracked) :
    tracked.IsFaithful ∧
      (Call.clear ∉ later → tracked.pool.Persists (tracked.run later).pool) ∧
      ∀ node < numNodes,
        (∀ count, (tracked.pool.sweep node).2 = .ok count →
          (tracked.pool.sweep node).1.Undominated node) ∧
        ((∀ first ∈ tracked.pool.liveAt node, ∀ second ∈ tracked.pool.liveAt node,
            ∃ answer, tracked.pool.dominates first second = .ok answer) →
          ∃ count, (tracked.pool.sweep node).2 = .ok count) := by
  subst hrun
  obtain ⟨hkeeps, hsize⟩ :=
    (Tracked.keeps_ofSize numNodes).run (Tracked.permits_append.mp hpermits).1
  refine ⟨hkeeps.isFaithful, Persists.run, fun node hnode => ⟨fun count hcount => ?_, fun hknown => ?_⟩⟩
  · refine undominated_sweep ?_ hcount
    rw [hsize]
    simpa [Tracked.ofSize, LabelPool.ofSize] using hnode
  · obtain ⟨after, count, hsweep, -⟩ := sweep_ok hknown
    exact ⟨count, by rw [hsweep]⟩

/-- Calls of every kind: after a pool is cleared, two labels that agree and one whose cost is not a
number are inserted without a check, and a label of another node is not inserted. -/
def mixedCalls : List (Call Datum) :=
  [.create 1 [.int 3] (.int 2) none none, .insert 0 true, .clear,
    .create 0 [.int 4] (.float 1.5) none none, .create 0 [.int 4] (.float 1.5) (some 0) (some 2),
    .create 0 [.int 4, .int 1] (.float Number.notANumber) none none, .create 1 [] (.int 7) none none,
    .insert 0 false, .insert 1 false, .insert 2 false]

/-- The mixed calls are permitted, and the labels that dominate one another are swept down to one. -/
theorem faithful_mixedCalls :
    ((Tracked.ofSize 2).run mixedCalls).IsFaithful ∧
      ((Tracked.ofSize 2).run mixedCalls).pool.Persists
        (((Tracked.ofSize 2).run mixedCalls).run [.sweep 0, .insert 3 true]).pool ∧
      (((Tracked.ofSize 2).run mixedCalls).pool.sweep 0).2 = .ok 2 ∧
      (((Tracked.ofSize 2).run mixedCalls).pool.sweep 0).1.Undominated 0 := by
  have hpermits : (Tracked.ofSize 2).Permits (mixedCalls ++ [.sweep 0, .insert 3 true]) := by
    decide +kernel
  have hsweep : (((Tracked.ofSize 2).run mixedCalls).pool.sweep 0).2.toOption = some 2 := by
    decide +kernel
  have hsweep := toOption_eq_some.mp hsweep
  obtain ⟨hfaithful, hpersists, hswept⟩ := faithful_of_run hpermits rfl
  exact ⟨hfaithful, hpersists (by simp), hsweep, (hswept 0 (by decide)).1 2 hsweep⟩

end LabelPool

end PatternCovering
