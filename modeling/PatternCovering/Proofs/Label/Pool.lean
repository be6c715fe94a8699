import PatternCovering.Label.Pool
import PatternCovering.Proofs.Failure
import Mathlib.Data.List.Nodup
import Mathlib.Data.List.Perm.Basic

/-!
# Insertion and the sweep of a label pool

The labels of a pool without their flags form a history that creation alone extends: insertion and
the sweep change only flags and live lists. What an insertion can do is stated once, as three cases:
the label joins unchecked, it is turned away, or it joins and takes out what it dominates. Live
labels that do not dominate one another are left alone by the sweep.

Nothing is assumed about costs and resources here, so that all of this holds with not-a-number among
them as well.
-/

namespace PatternCovering

section Sifting

variable {β : Type}

/-- Moving the last entry to the front only reorders a list. -/
theorem lastFirst_perm (entries : List β) : (lastFirst entries).Perm entries := by
  cases entries with
  | nil => exact List.Perm.refl _
  | cons entry rest =>
    have hsplit := List.dropLast_append_getLast (l := entry :: rest) (by simp)
    have hswap : ([(entry :: rest).getLast (by simp)] ++ (entry :: rest).dropLast).Perm
        ((entry :: rest).dropLast ++ [(entry :: rest).getLast (by simp)]) :=
      List.perm_append_comm
    rw [hsplit] at hswap
    exact hswap

/-- Sifting loses no entry: every one of them is left or removed. -/
theorem sift_perm (drop : Array β → List β → β → Except Fault Bool) (kept : Array β)
    (ahead : List β) :
    ((sift drop kept ahead).left.toList ++ (sift drop kept ahead).removed).Perm
      (kept.toList ++ ahead) := by
  fun_induction sift drop kept ahead with
  | case1 kept => simp
  | case2 kept entry rest fault hdrop => simp
  | case3 kept entry rest hdrop others ih =>
    have hrest := ih.trans ((lastFirst_perm rest).append_left kept.toList)
    exact List.perm_middle.trans ((hrest.cons entry).trans List.perm_middle.symm)
  | case4 kept entry rest hdrop ih => simpa using ih

/-- A test that looks at one entry alone removes exactly the entries that it holds for. -/
theorem sift_finished (test : β → Except Fault Bool) (kept : Array β) (ahead : List β)
    (h : (sift (fun _ _ entry => test entry) kept ahead).finished = .ok ()) :
    (∀ entry ∈ (sift (fun _ _ entry => test entry) kept ahead).removed, test entry = .ok true) ∧
      ∀ entry ∈ (sift (fun _ _ entry => test entry) kept ahead).left.toList,
        entry ∈ kept.toList ∨ test entry = .ok false := by
  fun_induction sift (fun _ _ entry => test entry) kept ahead with
  | case1 kept => exact ⟨by simp, fun entry hentry => Or.inl hentry⟩
  | case2 kept entry rest fault hdrop => simp at h
  | case3 kept entry rest hdrop others ih =>
    obtain ⟨hremoved, hleft⟩ := ih h
    refine ⟨fun other hother => ?_, hleft⟩
    rcases List.mem_cons.mp hother with rfl | hother
    · exact hdrop
    · exact hremoved other hother
  | case4 kept entry rest hdrop ih =>
    obtain ⟨hremoved, hleft⟩ := ih h
    refine ⟨hremoved, fun other hother => ?_⟩
    rcases hleft other hother with hkept | hfalse
    · rw [Array.toList_push, List.mem_append, List.mem_singleton] at hkept
      rcases hkept with hkept | rfl
      · exact Or.inl hkept
      · exact Or.inr hdrop
    · exact Or.inr hfalse

/-- A test that holds nowhere along a list leaves the list as it is. -/
theorem sift_of_never {drop : Array β → List β → β → Except Fault Bool} {entries : List β}
    (h : ∀ kept entry rest, kept.toList ++ entry :: rest = entries →
      drop kept rest entry = .ok false) (kept : Array β) (ahead : List β)
    (hsplit : kept.toList ++ ahead = entries) :
    sift drop kept ahead = ⟨entries.toArray, [], .ok ()⟩ := by
  induction ahead generalizing kept with
  | nil =>
    rw [sift, ← hsplit]
    simp
  | cons entry rest ih =>
    rw [sift, h kept entry rest hsplit]
    exact ih (kept.push entry) (by simpa using hsplit)

/-- A list is gone along to its end by a test that does not fail on its entries. -/
theorem sift_finishes (drop : Array β → List β → β → Except Fault Bool) {P : β → Prop}
    (h : ∀ kept rest entry, (∀ other ∈ kept.toList ++ rest, P other) → P entry →
      ∃ answer, drop kept rest entry = .ok answer) (kept : Array β) (ahead : List β)
    (hentries : ∀ entry ∈ kept.toList ++ ahead, P entry) :
    (sift drop kept ahead).finished = .ok () := by
  fun_induction sift drop kept ahead with
  | case1 kept => rfl
  | case2 kept entry rest fault hdrop =>
    obtain ⟨answer, hanswer⟩ := h kept rest entry
      (fun other hother => hentries other
        (List.perm_middle.symm.subset (List.mem_cons_of_mem _ hother)))
      (hentries entry (List.mem_append_right _ List.mem_cons_self))
    rw [hdrop] at hanswer
    cases hanswer
  | case3 kept entry rest hdrop others ih =>
    refine ih fun other hother => hentries other ?_
    have hmem := ((lastFirst_perm rest).append_left kept.toList).subset hother
    exact List.perm_middle.symm.subset (List.mem_cons_of_mem _ hmem)
  | case4 kept entry rest hdrop ih => exact ih (by simpa using hentries)

end Sifting

namespace Label

variable {ι α : Type}

/-- The label as it was created, before any flag was set. -/
def unflagged (label : Label ι α) : Label ι α := { label with dominated := false }

end Label

namespace LabelPool

variable {ι α : Type} {pool : LabelPool ι α} {node : Nat}

/-- The labels of a pool as they were created. -/
def history (pool : LabelPool ι α) : List (Label ι α) := pool.arena.toList.map Label.unflagged

/-- The history at an identifier is the label of the arena without its flag. -/
theorem getElem?_history (pool : LabelPool ι α) (id : Nat) :
    pool.history[id]? = pool.arena[id]?.map Label.unflagged := by
  simp [history]

/-- The history is as long as labels were created. -/
@[simp]
theorem length_history (pool : LabelPool ι α) : pool.history.length = pool.numCreated := by
  simp [history, numCreated]

/-- Creating a label adds it at the end of the history. -/
theorem history_create [Position ι] (pool : LabelPool ι α) (node : ι) (resources : List α)
    (cost : α) (predecessor arc : Option ι) :
    (pool.create node resources cost predecessor arc).history = pool.history ++
      [{ id := Position.ofNat pool.numCreated, node, resources, cost, predecessor, arc }] := by
  simp [history, create, Label.unflagged]

/-- Flagging labels sets the flag of each of them and changes no other label. -/
theorem getElem?_flag (pool : LabelPool ι α) (ids : List Nat) (id : Nat) :
    (pool.flag ids).arena[id]? = pool.arena[id]?.map fun label =>
      if id ∈ ids then { label with dominated := true } else label := by
  simp only [flag]
  generalize pool.arena = arena
  induction ids generalizing arena with
  | nil => simp
  | cons first rest ih =>
    rw [List.foldl_cons, ih, Array.getElem?_modify]
    by_cases hfirst : first = id
    · subst hfirst
      cases arena[first]? <;> simp
    · rw [if_neg hfirst]
      simp [List.mem_cons, Ne.symm hfirst]

/-- Flags are no part of the history. -/
@[simp]
theorem history_flag (pool : LabelPool ι α) (ids : List Nat) :
    (pool.flag ids).history = pool.history := by
  apply List.ext_getElem?
  intro id
  rw [getElem?_history, getElem?_history, getElem?_flag, Option.map_map]
  congr 1
  funext label
  simp only [Function.comp_apply]
  split <;> rfl

/-- Setting a live list is no part of the history. -/
@[simp]
theorem history_setLive (pool : LabelPool ι α) (node : Nat) (ids : Array Nat) :
    (pool.setLive node ids).history = pool.history := rfl

/-- Joining a live list is no part of the history. -/
@[simp]
theorem history_addLive (pool : LabelPool ι α) (node id : Nat) :
    (pool.addLive node id).history = pool.history := rfl

/-- A set live list is found at its node, and all others are as before. -/
theorem liveAt_setLive (hnode : node < pool.live.size) (ids : Array Nat) (other : Nat) :
    (pool.setLive node ids).liveAt other = if other = node then ids else pool.liveAt other := by
  simp only [liveAt, setLive]
  by_cases hother : other = node
  · subst hother
    simp [Array.getElem?_setIfInBounds_self_of_lt hnode]
  · rw [Array.getElem?_setIfInBounds_ne (Ne.symm hother), if_neg hother]

/-- Setting a live list to what it is changes nothing. -/
@[simp]
theorem setLive_liveAt (pool : LabelPool ι α) (node : Nat) :
    pool.setLive node (pool.liveAt node) = pool := by
  have hlive : pool.live.setIfInBounds node (pool.liveAt node) = pool.live := by
    apply Array.ext_getElem?
    intro other
    by_cases hother : node = other
    · subst hother
      by_cases hlt : node < pool.live.size
      · simp [liveAt, hlt]
      · simp [liveAt, hlt]
    · rw [Array.getElem?_setIfInBounds_ne hother]
  rw [setLive, hlive]

/-- Flagging no label changes nothing. -/
@[simp]
theorem flag_nil (pool : LabelPool ι α) : pool.flag [] = pool := rfl

/-- A label that joins stands at the end of the live list of its node. -/
theorem liveAt_addLive (hnode : node < pool.live.size) (id other : Nat) :
    (pool.addLive node id).liveAt other =
      if other = node then (pool.liveAt node).push id else pool.liveAt other := by
  simp only [liveAt, addLive, Array.getElem?_modify]
  by_cases hother : other = node
  · subst hother
    simp [Array.getElem?_eq_getElem hnode]
  · rw [if_neg (Ne.symm hother), if_neg hother]

section Dominance

variable [Quantity α]

/-- Which labels dominate which is settled by the history. -/
theorem dominates_eq (pool : LabelPool ι α) (id other : Nat) :
    pool.dominates id other =
      match pool.history[id]?, pool.history[other]? with
      | some label, some second => label.dominates second
      | _, _ => .ok false := by
  rw [getElem?_history, getElem?_history, dominates]
  cases pool.arena[id]? <;> cases pool.arena[other]? <;> rfl

/-- Labels of the history dominate one another in the pool as they do by themselves. -/
theorem dominates_of_history {id other : Nat} {label second : Label ι α}
    (hid : pool.history[id]? = some label) (hother : pool.history[other]? = some second) :
    pool.dominates id other = label.dominates second := by
  rw [dominates_eq, hid, hother]

/-- Pools of the same history agree on dominance. -/
theorem dominates_congr {first second : LabelPool ι α} (h : first.history = second.history)
    (id other : Nat) : first.dominates id other = second.dominates id other := by
  rw [dominates_eq, dominates_eq, h]

/-- The search for a dominating label asks the first one, and goes on only if it does not. -/
theorem anyDominates_cons (first : Nat) (rest : List Nat) (other : Nat) :
    pool.anyDominates (first :: rest) other =
      match pool.dominates first other with
      | .error fault => .error fault
      | .ok true => .ok true
      | .ok false => pool.anyDominates rest other := by
  rw [anyDominates, List.anyM]
  rcases pool.dominates first other with fault | dominated
  · rfl
  · cases dominated <;> rfl

/-- The search for a dominating label goes on to further labels only if it has found none. -/
theorem anyDominates_append (ids further : List Nat) (other : Nat) :
    pool.anyDominates (ids ++ further) other = (do
      if ← pool.anyDominates ids other then return true
      else pool.anyDominates further other) := by
  induction ids with
  | nil => rfl
  | cons first rest ih =>
    rw [List.cons_append, anyDominates_cons, anyDominates_cons, ih]
    rcases pool.dominates first other with fault | dominated
    · rfl
    · cases dominated <;> rfl

/-- The search for a dominating label ends without any exactly if none of the labels does. -/
theorem anyDominates_false {ids : List Nat} {other : Nat} :
    pool.anyDominates ids other = .ok false ↔
      ∀ id ∈ ids, pool.dominates id other = .ok false := by
  induction ids with
  | nil => simp [anyDominates, List.anyM, pure, Except.pure]
  | cons first rest ih =>
    rw [anyDominates_cons, List.forall_mem_cons]
    rcases pool.dominates first other with fault | dominated
    · simp
    · cases dominated <;> simp [ih]

/-- The search for a dominating label answers yes only if it has found one. -/
theorem anyDominates_true {ids : List Nat} {other : Nat}
    (h : pool.anyDominates ids other = .ok true) :
    ∃ id ∈ ids, pool.dominates id other = .ok true := by
  induction ids with
  | nil => simp [anyDominates, List.anyM, pure, Except.pure] at h
  | cons first rest ih =>
    rw [anyDominates_cons] at h
    rcases hfirst : pool.dominates first other with fault | dominated
    · simp [hfirst] at h
    · cases dominated with
      | true => exact ⟨first, List.mem_cons_self, hfirst⟩
      | false =>
        obtain ⟨id, hid, hdominates⟩ := ih (by simpa [hfirst] using h)
        exact ⟨id, List.mem_cons_of_mem _ hid, hdominates⟩

/-- A dominating label can be searched for among labels that can be compared. -/
theorem anyDominates_ok {ids : List Nat} {other : Nat}
    (h : ∀ id ∈ ids, ∃ answer, pool.dominates id other = .ok answer) :
    ∃ answer, pool.anyDominates ids other = .ok answer := by
  induction ids with
  | nil => exact ⟨false, rfl⟩
  | cons first rest ih =>
    obtain ⟨hfirst, hrest⟩ := List.forall_mem_cons.mp h
    obtain ⟨answer, hanswer⟩ := hfirst
    rw [anyDominates_cons, hanswer]
    cases answer with
    | true => exact ⟨true, rfl⟩
    | false => exact ih hrest

/-- How the live labels of a node divide when a new one joins: nobody dominates it, those that it
dominates are removed, and the others are left. -/
structure Admits (pool : LabelPool ι α) (id node : Nat) (left : Array Nat) (removed : List Nat) :
    Prop where
  perm : (left.toList ++ removed).Perm (pool.liveAt node).toList
  undominated : ∀ other ∈ pool.liveAt node, pool.dominates other id = .ok false
  removed_dominated : ∀ other ∈ removed, pool.dominates id other = .ok true
  left_undominated : ∀ other ∈ left.toList, pool.dominates id other = .ok false

/-- What an insertion can do: the label joins unchecked, it is turned away because a live label
dominates it, or it joins and takes out the live labels that it dominates. -/
theorem insert_cases [Position ι] {id : Nat} {check inserted : Bool} {after : LabelPool ι α}
    {label : Label ι α} (hlabel : pool.arena[id]? = some label)
    (hnode : pool.nodeAt label.node = .ok node) (h : pool.insert id check = (after, .ok inserted)) :
    (check = false ∧ inserted = true ∧ after = pool.addLive node id) ∨
    (check = true ∧ inserted = false ∧
      (∃ other ∈ pool.liveAt node, pool.dominates other id = .ok true) ∧
      after = pool.flag [id]) ∨
    (check = true ∧ inserted = true ∧ ∃ left removed, pool.Admits id node left removed ∧
      after = ((pool.flag removed).setLive node left).addLive node id) := by
  simp only [insert, hlabel, hnode] at h
  cases check with
  | false =>
    simp only [Bool.false_eq_true, if_false, Prod.mk.injEq, Except.ok.injEq] at h
    exact Or.inl ⟨rfl, h.2.symm, h.1.symm⟩
  | true =>
    simp only [if_true, settle] at h
    cases hany : pool.anyDominates (pool.liveAt node).toList id with
    | error fault => simp [hany] at h
    | ok dominated =>
      cases dominated with
      | true =>
        simp only [hany, Prod.mk.injEq, Except.ok.injEq] at h
        obtain ⟨other, hother, hdominates⟩ := anyDominates_true hany
        exact Or.inr (Or.inl ⟨rfl, h.2.symm, ⟨other, by simpa using hother, hdominates⟩, h.1.symm⟩)
      | false =>
        simp only [hany] at h
        have hperm := sift_perm (fun _ _ other => pool.dominates id other) #[]
          (pool.liveAt node).toList
        have htest := sift_finished (fun other => pool.dominates id other) #[]
          (pool.liveAt node).toList
        generalize sift (fun _ _ other => pool.dominates id other) #[]
          (pool.liveAt node).toList = sifted at h hperm htest
        cases hfinished : sifted.finished with
        | error fault => simp [hfinished] at h
        | ok finished =>
          simp only [hfinished, Prod.mk.injEq, Except.ok.injEq] at h
          obtain ⟨hremoved, hleft⟩ := htest hfinished
          refine Or.inr (Or.inr ⟨rfl, h.2.symm, sifted.left, sifted.removed, ?_, h.1.symm⟩)
          refine ⟨by simpa using hperm, fun other hother => ?_, hremoved, fun other hother => ?_⟩
          · exact anyDominates_false.mp hany other (by simpa using hother)
          · simpa using hleft other hother

/-- Insertion is no part of the history, however it ends. -/
@[simp]
theorem history_insert [Position ι] (pool : LabelPool ι α) (id : Nat) (check : Bool) :
    (pool.insert id check).1.history = pool.history := by
  simp only [insert, settle]
  repeat' split
  all_goals simp

/-- A sweep is no part of the history, however it ends. -/
@[simp]
theorem history_sweep (pool : LabelPool ι α) (node : Nat) :
    (pool.sweep node).1.history = pool.history := by
  simp [sweep]

/-- Different live labels at a node do not dominate one another. -/
def Undominated (pool : LabelPool ι α) (node : Nat) : Prop :=
  ∀ first ∈ pool.liveAt node, ∀ second ∈ pool.liveAt node, first ≠ second →
    pool.dominates first second = .ok false

/-- How a sweep divides the live labels of a node: it asks of each one whether any of those that are
left dominates it. -/
def swept (pool : LabelPool ι α) (node : Nat) : Sifted Nat :=
  sift (fun kept ahead id => pool.anyDominates (kept.toList ++ ahead) id) #[]
    (pool.liveAt node).toList

/-- A sweep flags the labels that it takes out and keeps the others. -/
theorem sweep_eq (pool : LabelPool ι α) (node : Nat) :
    pool.sweep node = ((pool.flag (pool.swept node).removed).setLive node (pool.swept node).left,
      (pool.swept node).finished.map fun _ => (pool.swept node).removed.length) := by
  have htest : (fun (kept : Array Nat) ahead id => pool.anyDominates (kept.toList ++ ahead) id) =
      fun kept ahead id => (do
        if ← kept.anyM fun other => pool.dominates other id then return true
        else pool.anyDominates ahead id) := by
    funext kept ahead id
    rw [anyDominates_append, anyDominates, Array.anyM_toList]
  rw [swept, htest]
  rfl

/-- A node whose live labels do not dominate one another is swept without any change. -/
theorem sweep_of_undominated (hnodup : (pool.liveAt node).toList.Nodup)
    (h : pool.Undominated node) : pool.sweep node = (pool, .ok 0) := by
  have hnever : pool.swept node = ⟨(pool.liveAt node).toList.toArray, [], .ok ()⟩ := by
    refine sift_of_never (fun kept id rest hsplit => ?_) #[] _ (by simp)
    rw [← hsplit, List.nodup_middle, List.nodup_cons] at hnodup
    refine anyDominates_false.mpr fun other hother => ?_
    have hmem : ∀ some ∈ id :: (kept.toList ++ rest), some ∈ pool.liveAt node := by
      intro some hsome
      rw [← Array.mem_toList_iff, ← hsplit]
      exact List.perm_middle.symm.subset hsome
    exact h other (hmem other (List.mem_cons_of_mem _ hother)) id (hmem id List.mem_cons_self)
      fun heq => hnodup.1 (heq ▸ hother)
  rw [sweep_eq, hnever]
  simp [Except.map]

/-- A node can be swept where its live labels can be compared, and the number of nodes stays. -/
theorem sweep_ok (h : ∀ first ∈ pool.liveAt node, ∀ second ∈ pool.liveAt node,
      ∃ answer, pool.dominates first second = .ok answer) :
    ∃ after count, pool.sweep node = (after, .ok count) ∧ after.live.size = pool.live.size := by
  have hfinished : (pool.swept node).finished = .ok () := by
    refine sift_finishes _ (P := (· ∈ pool.liveAt node)) (fun kept rest id hids hid => ?_) #[] _
      (by simp)
    exact anyDominates_ok fun other hother => h other (hids other hother) id hid
  refine ⟨(pool.sweep node).1, (pool.swept node).removed.length, ?_, ?_⟩
  · rw [sweep_eq, hfinished]
    rfl
  · simp [sweep_eq, setLive, flag]

end Dominance

section Sound

variable {α : Type} {pool after : LabelPool Int α} {id node : Nat} {check inserted : Bool}

/-- Live labels are labels of the arena at their node, without a flag, and each is listed once. -/
structure Sound (pool : LabelPool Int α) : Prop where
  live : ∀ node id, id ∈ pool.liveAt node → ∃ label, pool.arena[id]? = some label ∧
    label.node = (node : Int) ∧ label.dominated = false
  nodup : ∀ node, (pool.liveAt node).toList.Nodup

/-- The node of an integer position below the number of nodes is that integer. -/
theorem nodeAt_natCast (hnode : node < pool.live.size) : pool.nodeAt (node : Int) = .ok node :=
  Position.place_eq_ok (Int.natCast_nonneg node) hnode

/-- The live lists once labels have left a node. -/
theorem liveAt_takenOut (hnode : node < pool.live.size) (left : Array Nat) (removed : List Nat)
    (other : Nat) :
    ((pool.flag removed).setLive node left).liveAt other =
      if other = node then left else pool.liveAt other := by
  have hflagged : node < (pool.flag removed).live.size := by simpa [flag] using hnode
  rw [liveAt_setLive hflagged]
  rfl

/-- The live lists once a label has joined a node and others have left it. -/
theorem liveAt_admitted (hnode : node < pool.live.size) (left : Array Nat) (removed : List Nat)
    (other : Nat) :
    (((pool.flag removed).setLive node left).addLive node id).liveAt other =
      if other = node then left.push id else pool.liveAt other := by
  have hnode' : node < ((pool.flag removed).setLive node left).live.size := by
    simpa [setLive, flag] using hnode
  rw [liveAt_addLive hnode', liveAt_takenOut hnode, liveAt_takenOut hnode, if_pos rfl]
  split <;> rfl

/-- A list that a new entry is put at the end of lists no entry twice. -/
theorem nodup_push {ids : Array Nat} (h : ids.toList.Nodup) (hid : id ∉ ids) :
    (ids.push id).toList.Nodup := by
  rw [Array.toList_push, List.nodup_append]
  refine ⟨h, List.nodup_singleton id, fun other hother second hsecond => ?_⟩
  rw [List.mem_singleton.mp hsecond]
  exact fun heq => hid (heq ▸ Array.mem_toList_iff.mp hother)

section Leaving

variable {left : Array Nat} {removed : List Nat} (hsound : pool.Sound)
  (hperm : (left.toList ++ removed).Perm (pool.liveAt node).toList)

include hperm

/-- A label that leaves a node was live there. -/
theorem mem_liveAt_of_removed {other : Nat} (hother : other ∈ removed) : other ∈ pool.liveAt node :=
  Array.mem_toList_iff.mp (hperm.mem_iff.mp (List.mem_append_right _ hother))

include hsound

/-- A label that is left at a node was live there and is not removed, because no label is listed
twice. -/
theorem Sound.of_left {other : Nat} (hother : other ∈ left) :
    other ∈ pool.liveAt node ∧ other ∉ removed := by
  have hlist : (left.toList ++ removed).Nodup := hperm.nodup_iff.mpr (hsound.nodup node)
  have hmem : other ∈ left.toList := Array.mem_toList_iff.mpr hother
  refine ⟨Array.mem_toList_iff.mp (hperm.mem_iff.mp (List.mem_append_left _ hmem)), ?_⟩
  exact fun hremoved => (List.nodup_append.mp hlist).2.2 other hmem other hremoved rfl

/-- A sound pool stays sound when live labels of a node are flagged and leave it. -/
theorem Sound.takeOut (hnode : node < pool.live.size) :
    ((pool.flag removed).setLive node left).Sound := by
  have harena : ∀ other, other ∉ removed →
      ((pool.flag removed).setLive node left).arena[other]? = pool.arena[other]? := by
    intro other hother
    change (pool.flag removed).arena[other]? = _
    rw [getElem?_flag]
    simp [hother]
  refine ⟨fun place other hother => ?_, fun place => ?_⟩
  · rw [liveAt_takenOut hnode] at hother
    split at hother
    · next heq =>
      subst heq
      obtain ⟨hold, hkept⟩ := hsound.of_left hperm hother
      rw [harena other hkept]
      exact hsound.live place other hold
    · next hne =>
      obtain ⟨known, hknown, hat, hunflagged⟩ := hsound.live place other hother
      -- a removed label stands at the node that is left, not at this one
      have hkept : other ∉ removed := by
        intro hmem
        obtain ⟨second, hsecond, hat', -⟩ :=
          hsound.live node other (mem_liveAt_of_removed hperm hmem)
        rw [hknown, Option.some.injEq] at hsecond
        rw [hsecond, hat'] at hat
        exact hne (Int.ofNat_inj.mp hat).symm
      rw [harena other hkept]
      exact ⟨known, hknown, hat, hunflagged⟩
  · rw [liveAt_takenOut hnode]
    split
    · exact (List.nodup_append.mp (hperm.nodup_iff.mpr (hsound.nodup node))).1
    · exact hsound.nodup place

end Leaving

/-- A sound pool stays sound when a new label without a flag joins its node. -/
theorem Sound.join {label : Label Int α} (hsound : pool.Sound)
    (hlabel : pool.arena[id]? = some label) (hplace : label.node = (node : Int))
    (hflag : label.dominated = false) (hnode : node < pool.live.size)
    (hfresh : ∀ place, id ∉ pool.liveAt place) : (pool.addLive node id).Sound := by
  refine ⟨fun place other hother => ?_, fun place => ?_⟩
  · rw [liveAt_addLive hnode] at hother
    split at hother
    · next heq =>
      subst heq
      rcases Array.mem_push.mp hother with hother | rfl
      · exact hsound.live place other hother
      · exact ⟨label, hlabel, hplace, hflag⟩
    · exact hsound.live place other hother
  · rw [liveAt_addLive hnode]
    split
    · exact nodup_push (hsound.nodup node) (hfresh node)
    · exact hsound.nodup place

/-- A sound pool stays sound when a label that is not live is flagged. -/
theorem Sound.turnAway (hsound : pool.Sound) (hfresh : ∀ place, id ∉ pool.liveAt place) :
    (pool.flag [id]).Sound := by
  refine ⟨fun place other hother => ?_, fun place => hsound.nodup place⟩
  obtain ⟨known, hknown, hat, hunflagged⟩ := hsound.live place other hother
  have hne : other ∉ [id] := fun hmem => hfresh place (List.mem_singleton.mp hmem ▸ hother)
  refine ⟨known, ?_, hat, hunflagged⟩
  rw [getElem?_flag, hknown, Option.map_some, if_neg hne]

variable [Quantity α]

/-- A sound pool stays sound when a new label without a flag joins a node and others leave it. -/
theorem Sound.admit {label : Label Int α} {left : Array Nat} {removed : List Nat}
    (hsound : pool.Sound) (hlabel : pool.arena[id]? = some label)
    (hplace : label.node = (node : Int)) (hflag : label.dominated = false)
    (hnode : node < pool.live.size) (hfresh : ∀ place, id ∉ pool.liveAt place)
    (hadmits : pool.Admits id node left removed) :
    (((pool.flag removed).setLive node left).addLive node id).Sound := by
  have hkept : id ∉ removed := fun hmem => hfresh node (mem_liveAt_of_removed hadmits.perm hmem)
  have hknown : ((pool.flag removed).setLive node left).arena[id]? = some label := by
    change (pool.flag removed).arena[id]? = _
    rw [getElem?_flag, hlabel, Option.map_some, if_neg hkept]
  have hnode' : node < ((pool.flag removed).setLive node left).live.size := by
    simpa [setLive, flag] using hnode
  refine (hsound.takeOut hadmits.perm hnode).join hknown hplace hflag hnode' fun place hmem => ?_
  rw [liveAt_takenOut hnode] at hmem
  split at hmem
  · exact hfresh node (hsound.of_left hadmits.perm hmem).1
  · exact hfresh place hmem

/-- A label of the arena can be inserted at its node where it can be compared with the live labels
there, and the number of nodes stays. -/
theorem insert_ok {label : Label Int α} (hlabel : pool.arena[id]? = some label)
    (hplace : label.node = (node : Int)) (hnode : node < pool.live.size)
    (h : ∀ other ∈ pool.liveAt node, (∃ answer, pool.dominates other id = .ok answer) ∧
      ∃ answer, pool.dominates id other = .ok answer) (check : Bool) :
    ∃ after inserted, pool.insert id check = (after, .ok inserted) ∧
      after.live.size = pool.live.size := by
  simp only [insert, hlabel, hplace, nodeAt_natCast hnode]
  cases check with
  | false => exact ⟨_, _, rfl, by simp [addLive]⟩
  | true =>
    simp only [if_true, settle]
    obtain ⟨answer, hanswer⟩ : ∃ answer, pool.anyDominates (pool.liveAt node).toList id =
        .ok answer := anyDominates_ok fun other hother => (h other (Array.mem_toList_iff.mp hother)).1
    cases answer with
    | true => exact ⟨pool.flag [id], false, by rw [hanswer], rfl⟩
    | false =>
      have hfinished := sift_finishes (fun _ _ other => pool.dominates id other)
        (P := (· ∈ pool.liveAt node)) (fun _ _ other _ hother => (h other hother).2)
        #[] (pool.liveAt node).toList (by simp)
      simp only [hanswer, hfinished]
      exact ⟨_, _, rfl, by simp [addLive, setLive, flag]⟩

section Insertion

variable {label : Label Int α} (hlabel : pool.arena[id]? = some label)
  (hplace : label.node = (node : Int)) (hnode : node < pool.live.size)
  (h : pool.insert id check = (after, .ok inserted))

include hlabel hplace hnode h

/-- What an insertion at a node can do. -/
theorem insert_at_cases :
    (check = false ∧ inserted = true ∧ after = pool.addLive node id) ∨
    (check = true ∧ inserted = false ∧
      (∃ other ∈ pool.liveAt node, pool.dominates other id = .ok true) ∧
      after = pool.flag [id]) ∨
    (check = true ∧ inserted = true ∧ ∃ left removed, pool.Admits id node left removed ∧
      after = ((pool.flag removed).setLive node left).addLive node id) :=
  insert_cases hlabel (hplace ▸ nodeAt_natCast hnode) h

/-- Insertion keeps the number of nodes. -/
theorem size_live_insert : after.live.size = pool.live.size := by
  obtain ⟨-, -, rfl⟩ | ⟨-, -, -, rfl⟩ | ⟨-, -, left, removed, -, rfl⟩ :=
    insert_at_cases hlabel hplace hnode h
  · simp [addLive]
  · rfl
  · simp [addLive, setLive, flag]

/-- A label that is live after an insertion was live before, or is the one that joined. -/
theorem mem_liveAt_of_insert {other place : Nat} (hother : other ∈ after.liveAt place) :
    other ∈ pool.liveAt place ∨ (place = node ∧ other = id ∧ inserted = true) := by
  obtain ⟨-, rfl, rfl⟩ | ⟨-, -, -, rfl⟩ | ⟨-, rfl, left, removed, hadmits, rfl⟩ :=
    insert_at_cases hlabel hplace hnode h
  · rw [liveAt_addLive hnode] at hother
    split at hother
    · next heq =>
      subst heq
      rcases Array.mem_push.mp hother with hother | rfl
      · exact Or.inl hother
      · exact Or.inr ⟨rfl, rfl, rfl⟩
    · exact Or.inl hother
  · exact Or.inl hother
  · rw [liveAt_admitted hnode] at hother
    split at hother
    · next heq =>
      subst heq
      rcases Array.mem_push.mp hother with hother | rfl
      · have hleft : other ∈ left.toList ++ removed :=
          List.mem_append_left _ (Array.mem_toList_iff.mpr hother)
        exact Or.inl (Array.mem_toList_iff.mp (hadmits.perm.mem_iff.mp hleft))
      · exact Or.inr ⟨rfl, rfl, rfl⟩
    · exact Or.inl hother

/-- A label that joins is live at its node. -/
theorem mem_liveAt_insert (hinserted : inserted = true) : id ∈ after.liveAt node := by
  obtain ⟨-, -, rfl⟩ | ⟨-, rfl, -, -⟩ | ⟨-, -, left, removed, -, rfl⟩ :=
    insert_at_cases hlabel hplace hnode h
  · rw [liveAt_addLive hnode, if_pos rfl]
    exact Array.mem_push_self
  · cases hinserted
  · rw [liveAt_admitted hnode, if_pos rfl]
    exact Array.mem_push_self

/-- A label that is turned away is dominated by a live label, and no live list has changed. -/
theorem exists_dominates_of_insert (hinserted : inserted = false) :
    check = true ∧ (∃ other ∈ pool.liveAt node, pool.dominates other id = .ok true) ∧
      ∀ place, after.liveAt place = pool.liveAt place := by
  obtain ⟨-, rfl, -⟩ | ⟨hcheck, -, hother, rfl⟩ | ⟨-, rfl, -⟩ :=
    insert_at_cases hlabel hplace hnode h
  · cases hinserted
  · exact ⟨hcheck, hother, fun place => rfl⟩
  · cases hinserted

/-- A live label stays live, unless a checked label has joined its node that dominates it. -/
theorem mem_liveAt_or_dominates {other place : Nat} (hother : other ∈ pool.liveAt place) :
    other ∈ after.liveAt place ∨
      (check = true ∧ inserted = true ∧ place = node ∧ pool.dominates id other = .ok true) := by
  obtain ⟨-, -, rfl⟩ | ⟨-, -, -, rfl⟩ | ⟨hcheck, hinserted, left, removed, hadmits, rfl⟩ :=
    insert_at_cases hlabel hplace hnode h
  · rw [liveAt_addLive hnode]
    split
    · next heq =>
      subst heq
      exact Or.inl (Array.mem_push_of_mem id hother)
    · exact Or.inl hother
  · exact Or.inl hother
  · rw [liveAt_admitted hnode]
    split
    · next heq =>
      subst heq
      have hsplit := hadmits.perm.mem_iff.mpr (Array.mem_toList_iff.mpr hother)
      rcases List.mem_append.mp hsplit with hleft | hremoved
      · exact Or.inl (Array.mem_push_of_mem id (Array.mem_toList_iff.mp hleft))
      · exact Or.inr ⟨hcheck, hinserted, rfl, hadmits.removed_dominated other hremoved⟩
    · exact Or.inl hother

/-- A sound pool stays sound when a new label without a flag is inserted. -/
theorem Sound.insert (hsound : pool.Sound) (hflag : label.dominated = false)
    (hfresh : ∀ place, id ∉ pool.liveAt place) : after.Sound := by
  obtain ⟨-, -, rfl⟩ | ⟨-, -, -, rfl⟩ | ⟨-, -, left, removed, hadmits, rfl⟩ :=
    insert_at_cases hlabel hplace hnode h
  · exact hsound.join hlabel hplace hflag hnode hfresh
  · exact hsound.turnAway hfresh
  · exact hsound.admit hlabel hplace hflag hnode hfresh hadmits

/-- After a checked insertion, live labels that did not dominate one another still do not. -/
theorem Undominated.insert (hcheck : check = true) {place : Nat} (hclear : pool.Undominated place) :
    after.Undominated place := by
  obtain ⟨hfalse, -, -⟩ | ⟨-, -, -, rfl⟩ | ⟨-, -, left, removed, hadmits, rfl⟩ :=
    insert_at_cases hlabel hplace hnode h
  · simp [hcheck] at hfalse
  · intro first hfirst second hsecond hne
    rw [dominates_congr (history_flag pool [id])]
    exact hclear first hfirst second hsecond hne
  · have hleft : ∀ other ∈ left, other ∈ pool.liveAt node := fun other hother =>
      Array.mem_toList_iff.mp
        (hadmits.perm.mem_iff.mp (List.mem_append_left _ (Array.mem_toList_iff.mpr hother)))
    have hhistory : (((pool.flag removed).setLive node left).addLive node id).history =
        pool.history := by simp
    intro first hfirst second hsecond hne
    rw [dominates_congr hhistory]
    rw [liveAt_admitted hnode] at hfirst hsecond
    split at hfirst
    · next heq =>
      rw [if_pos heq] at hsecond
      subst heq
      rcases Array.mem_push.mp hfirst with hfirstLeft | hfirstNew
      · rcases Array.mem_push.mp hsecond with hsecondLeft | rfl
        · exact hclear first (hleft first hfirstLeft) second (hleft second hsecondLeft) hne
        · exact hadmits.undominated first (hleft first hfirstLeft)
      · subst hfirstNew
        rcases Array.mem_push.mp hsecond with hsecondLeft | hsecondNew
        · exact hadmits.left_undominated second (Array.mem_toList_iff.mpr hsecondLeft)
        · exact absurd hsecondNew.symm hne
    · next hplace =>
      rw [if_neg hplace] at hsecond
      exact hclear first hfirst second hsecond hne

end Insertion

end Sound

end LabelPool

end PatternCovering
