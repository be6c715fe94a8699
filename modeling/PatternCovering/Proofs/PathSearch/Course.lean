import PatternCovering.Proofs.PathSearch.Lookups

/-!
# The course of a path search

Beside the state of a search, its course notes which labels were extended and which ones became live,
each in its turn. Between two visits the queue and its flags agree, every live label that was not
extended yet stands at a node that waits, each label that was extended was so once and has one label
for each of its feasible extensions, and there are no more visits than labels that became live.

The limit on labels breaks a search off in the middle of extending a label. That label is the last one
that was extended; all the others have their extensions. Nothing is assumed about costs and resources.
-/

namespace PatternCovering

namespace LabelPool

variable {α : Type} {pool : LabelPool Int α} {id : Nat}

/-- Whether a label is live at some node. -/
def isLive (pool : LabelPool Int α) (id : Nat) : Bool := pool.live.any (·.contains id)

/-- A label is live exactly if a node lists it. -/
theorem isLive_iff : pool.isLive id = true ↔ ∃ node, id ∈ pool.liveAt node := by
  simp only [isLive, Array.any_eq_true, Array.contains_iff_mem, liveAt]
  constructor
  · rintro ⟨node, hnode, hmem⟩
    exact ⟨node, by simpa [Array.getElem?_eq_getElem hnode] using hmem⟩
  · rintro ⟨node, hmem⟩
    by_cases hnode : node < pool.live.size
    · exact ⟨node, hnode, by simpa [Array.getElem?_eq_getElem hnode] using hmem⟩
    · simp [Array.getElem?_eq_none (Nat.le_of_not_lt hnode)] at hmem

/-- The label that was created between two pools, if it is live in the second one. -/
def joined (before after : LabelPool Int α) : List Nat :=
  if after.isLive before.numCreated then [before.numCreated] else []

end LabelPool

namespace PathSearch

variable {α : Type}

/-- The label whose extension begins between two phases. -/
def Phase.begun : Phase α → Phase α → List Nat
  | .visiting _ (id :: _), .extending _ _ _ _ _ => [id]
  | _, _ => []

/-- What is noted of a search: the labels that were extended and those that became live, each in its
turn. -/
structure Notes where
  extended : List Nat
  joined : List Nat

/-- The notes with what happens between two points. -/
def Notes.add (notes : Notes) (before after : Config α) : Notes where
  extended := notes.extended ++ before.phase.begun after.phase
  joined := notes.joined ++ before.state.pool.joined after.state.pool

variable [Quantity α] {search : PathSearch Int α} {costs : Array α} {notes : Notes}
  {config : Config α} {duals : List α}

/-- A search up to one of its points, with what was noted on the way. The label at the source is live
from the start. -/
inductive Course (search : PathSearch Int α) (costs : Array α) : Notes → Config α → Prop
  | start : Course search costs ⟨[], [0]⟩ ⟨.idle, search.start⟩
  | move {notes : Notes} {before after : Config α} (h : Course search costs notes before)
    (hmove : Move search costs before after) :
    Course search costs (notes.add before after) after

/-- A course leads to a point that the search comes through. -/
theorem Course.reached (h : Course search costs notes config) : Reached search costs config := by
  induction h with
  | start => exact Relation.ReflTransGen.refl
  | move _ hmove ih => exact ih.tail hmove

/-- There is a course to each point that the search comes through. -/
theorem Reached.exists_course (h : Reached search costs config) :
    ∃ notes, Course search costs notes config := by
  induction h with
  | refl => exact ⟨_, .start⟩
  | tail _ hmove ih =>
    obtain ⟨notes, hcourse⟩ := ih
    exact ⟨_, hcourse.move hmove⟩

/-- No label becomes live where the pool stays as it is. -/
theorem Books.joined_self (h : Books search costs config) :
    config.state.pool.joined config.state.pool = [] := by
  rw [LabelPool.joined, if_neg]
  rw [LabelPool.isLive_iff]
  rintro ⟨node, hlive⟩
  exact Nat.lt_irrefl _ (h.live_lt hlive)

/-- The label that is created has become live exactly if it was inserted. -/
theorem Growth.joined_eq {phase : Phase α} {state : State Int α} {node id : Nat}
    {label : Label Int α} {arc : Arc Int α} {price : α} {used : List α} {cost : α}
    {pool : LabelPool Int α} {target : Nat} {inserted : Bool}
    (g : Growth search costs state node id label arc price used cost pool target inserted)
    (h : Books search costs ⟨phase, state⟩) :
    state.pool.joined pool = if inserted then [state.pool.numCreated] else [] := by
  rw [LabelPool.joined]
  congr 1
  rw [eq_iff_iff, LabelPool.isLive_iff]
  constructor
  · rintro ⟨place, hlive⟩
    rcases g.live_cases h hlive with hold | ⟨-, -, hinserted⟩
    · exact absurd (h.live_lt hold) (Nat.lt_irrefl _)
    · exact hinserted
  · intro hinserted
    rcases g.created_cases h with ⟨-, hlive⟩ | ⟨hturned, -⟩
    · exact ⟨target, hlive⟩
    · rw [hinserted] at hturned
      cases hturned

/-- Whether a search may go on at a point: it was not stopped, or only the end of a visit is left. -/
def Config.Open (config : Config α) : Prop :=
  config.state.stop = none ∨ config.phase = .idle ∨ ∃ node, config.phase = .visiting node []

omit [Quantity α] in
/-- A search that has a label to look at or to extend was not stopped. -/
theorem Config.Open.stop_eq_none (h : config.Open) (hidle : config.phase ≠ .idle)
    (htodo : ∀ node, config.phase ≠ .visiting node []) : config.state.stop = none := by
  rcases h with hstop | hphase | ⟨node, hphase⟩
  · exact hstop
  · exact absurd hphase hidle
  · exact absurd hphase (htodo node)

/-- What the notes say of a point: they agree with the flags of the state, the label that is being
extended is the last one noted, and each visit and each node that waits is paid for by a label that
became live. -/
structure Notes.Fit (notes : Notes) (config : Config α) : Prop where
  extended_nodup : notes.extended.Nodup
  extended_iff : ∀ id, config.state.extended[id]? = some true ↔ id ∈ notes.extended
  last : ∀ node todo id label arcs, config.phase = .extending node todo id label arcs →
    notes.extended.getLast? = some id
  joined_lt : ∀ id ∈ notes.joined, id < config.state.pool.numCreated
  joined_nodup : notes.joined.Nodup
  paid : config.state.visits + config.state.queue.length ≤ notes.joined.length
  isOpen : config.Open

omit [Quantity α] in
/-- The label that is being extended stands last in the notes, and only there. -/
theorem Notes.Fit.ne_of_mem_dropLast {state : State Int α} {node id : Nat} {todo : List Nat}
    {label : Label Int α} {arcs : List (Arc Int α × α)}
    (h : notes.Fit ⟨.extending node todo id label arcs, state⟩) {other : Nat}
    (hother : other ∈ notes.extended.dropLast) : other ≠ id := by
  obtain ⟨earlier, hnoted⟩ := List.getLast?_eq_some_iff.mp (h.last _ _ _ _ _ rfl)
  have hnodup := h.extended_nodup
  rw [hnoted, List.nodup_append] at hnodup
  rw [hnoted, List.dropLast_concat] at hother
  exact hnodup.2.2 other hother id (List.mem_singleton_self id)

/-- The notes fit when a search starts. -/
theorem Notes.fit_start (hwell : search.WellFormed) : Notes.Fit ⟨[], [0]⟩ ⟨.idle, search.start⟩ where
  extended_nodup := List.nodup_nil
  extended_iff id := iff_of_false (extended_start_ne search id) List.not_mem_nil
  last := by
    rintro _ _ _ _ _ ⟨⟩
  joined_lt id hid := by
    rw [List.mem_singleton.mp hid]
    change 0 < search.start.pool.numCreated
    rw [← LabelPool.length_history, history_start search hwell.source_lt]
    exact Nat.one_pos
  joined_nodup := List.nodup_singleton 0
  paid := Nat.le_refl 1
  isOpen := Or.inl rfl

omit [Quantity α] in
/-- A label begins to be extended: it is noted, and was not noted before. -/
theorem Notes.Fit.begin {state : State Int α} {node id : Nat} {todo : List Nat}
    (h : notes.Fit ⟨.visiting node (id :: todo), state⟩) (hlt : id < state.extended.size)
    (hnew : state.extended[id]?.getD false = false) (label : Label Int α)
    (arcs : List (Arc Int α × α)) :
    Notes.Fit ⟨notes.extended ++ [id], notes.joined⟩ ⟨.extending node todo id label arcs,
      { state with extended := state.extended.setIfInBounds id true }⟩ where
  extended_nodup := by
    have hfresh : id ∉ notes.extended := by
      intro hmem
      have hflag : state.extended[id]? = some true := (h.extended_iff id).mpr hmem
      simp [hflag] at hnew
    exact List.nodup_append.mpr ⟨h.extended_nodup, List.nodup_singleton id, by
      rintro other hother _ hid rfl
      exact hfresh (List.mem_singleton.mp hid ▸ hother)⟩
  extended_iff other := by
    have hold : state.extended[other]? = some true ↔ other ∈ notes.extended := h.extended_iff other
    rw [List.mem_append, List.mem_singleton, Array.getElem?_setIfInBounds]
    split
    · next heq => simp [← heq]
    · next hne => rw [hold, or_iff_left (Ne.symm hne)]
  last := by
    rintro _ _ _ _ _ ⟨⟩
    exact List.getLast?_concat
  joined_lt := h.joined_lt
  joined_nodup := h.joined_nodup
  paid := h.paid
  isOpen := Or.inl (h.isOpen.stop_eq_none (by simp) (by simp))

/-- A label is created: if it becomes live, it is noted and pays for its node. -/
theorem Notes.Fit.grow {state : State Int α} {node id : Nat} {todo : List Nat}
    {label : Label Int α} {arc : Arc Int α} {price : α} {arcs : List (Arc Int α × α)}
    {used : List α} {cost : α} {pool : LabelPool Int α} {target : Nat} {inserted : Bool}
    (h : notes.Fit ⟨.extending node todo id label ((arc, price) :: arcs), state⟩)
    (hbooks : Books search costs ⟨.extending node todo id label ((arc, price) :: arcs), state⟩)
    (g : Growth search costs state node id label arc price used cost pool target inserted) :
    Notes.Fit ⟨notes.extended, notes.joined ++ state.pool.joined pool⟩
      ⟨.extending node todo id label arcs, state.grown pool target inserted⟩ where
  extended_nodup := h.extended_nodup
  extended_iff other := by
    have hold : state.extended[other]? = some true ↔ other ∈ notes.extended := h.extended_iff other
    rw [State.grown_extended, ← hold, Array.getElem?_push]
    split
    · next heq => simp [heq]
    · rfl
  last := by
    rintro _ _ _ _ _ ⟨⟩
    exact h.last _ _ _ _ _ rfl
  joined_lt other hother := by
    rw [State.grown_pool, g.numCreated_eq]
    rw [g.joined_eq hbooks, List.mem_append] at hother
    rcases hother with hold | hnew
    · exact Nat.lt_succ_of_lt (h.joined_lt other hold)
    · split at hnew
      · exact List.mem_singleton.mp hnew ▸ Nat.lt_succ_self _
      · cases hnew
  joined_nodup := by
    rw [g.joined_eq hbooks]
    refine List.nodup_append.mpr ⟨h.joined_nodup, by split <;> simp, ?_⟩
    rintro other hold _ hnew rfl
    split at hnew
    · have hlt : other < state.pool.numCreated := h.joined_lt other hold
      exact absurd (List.mem_singleton.mp hnew) (Nat.ne_of_lt hlt)
    · cases hnew
  paid := by
    have hpaid : state.visits + state.queue.length ≤ notes.joined.length := h.paid
    rw [State.grown_visits, State.grown_queue, g.joined_eq hbooks, List.length_append]
    cases inserted <;> cases state.waiting[target]?.getD false <;>
      simp only [Bool.true_and, Bool.false_and, Bool.not_true, Bool.not_false, if_true, if_false,
        Bool.false_eq_true, List.length_append, List.length_singleton, List.length_nil] <;> omega
  isOpen := Or.inl (by rw [State.grown_stop]; exact h.isOpen.stop_eq_none (by simp) (by simp))

/-- Nothing is noted by a move that begins to extend no label, creates none, and pays for no further
visit or waiting node. -/
theorem Notes.Fit.keep {before after : Config α} (h : notes.Fit before)
    (hbooks : Books search costs before) (hpool : after.state.pool = before.state.pool)
    (hextended : after.state.extended = before.state.extended)
    (hpaid : after.state.visits + after.state.queue.length =
      before.state.visits + before.state.queue.length)
    (hbegun : before.phase.begun after.phase = [])
    (hlast : ∀ node todo id label arcs, after.phase = .extending node todo id label arcs →
      notes.extended.getLast? = some id)
    (hopen : after.Open) : (notes.add before after).Fit after := by
  have hadd : notes.add before after = notes := by
    rw [Notes.add, hbegun, hpool, hbooks.joined_self, List.append_nil, List.append_nil]
  rw [hadd]
  exact
    { extended_nodup := h.extended_nodup
      extended_iff := hextended ▸ h.extended_iff
      last := hlast
      joined_lt := hpool ▸ h.joined_lt
      joined_nodup := h.joined_nodup
      paid := hpaid ▸ h.paid
      isOpen := hopen }

/-- The notes still fit after a move. -/
theorem Notes.Fit.move (hwell : search.WellFormed) {before after : Config α}
    (h : notes.Fit before) (hbooks : Books search costs before)
    (hmove : Move search costs before after) : (notes.add before after).Fit after := by
  cases hmove with
  | @pop state node rest hstop hqueue =>
    -- The visit takes the place of the node on the queue.
    have hpaid : state.visits + 1 + rest.length = state.visits + state.queue.length := by
      rw [hqueue, List.length_cons]
      omega
    exact h.keep hbooks rfl rfl hpaid rfl (by rintro _ _ _ _ _ ⟨⟩) (Or.inl hstop)
  | skip hskip =>
    have hstop := h.isOpen.stop_eq_none (by simp) (by simp)
    exact h.keep hbooks rfl rfl rfl rfl (by rintro _ _ _ _ _ ⟨⟩) (Or.inl hstop)
  | @begin state node id todo label hlabel hflag hnew =>
    have hlt : id < state.extended.size := by
      rw [hbooks.size_extended]
      exact (Array.getElem?_eq_some_iff.mp hlabel).1
    have hsame : state.pool.joined state.pool = [] := hbooks.joined_self
    simpa [Notes.add, Phase.begun, hsame] using h.begin hlt hnew label _
  | outside houtside =>
    have hstop := h.isOpen.stop_eq_none (by simp) (by simp)
    have hlast := h.last _ _ _ _ _ rfl
    exact h.keep hbooks rfl rfl rfl rfl (by rintro _ _ _ _ _ ⟨⟩; exact hlast) (Or.inl hstop)
  | full hfull =>
    exact h.keep hbooks rfl rfl rfl rfl (by rintro _ _ _ _ _ ⟨⟩) (Or.inr (Or.inr ⟨_, rfl⟩))
  | grow hinside htarget hinsert =>
    simpa [Notes.add, Phase.begun] using
      h.grow hbooks (hbooks.growth hwell hinside htarget hinsert)
  | finish =>
    have hstop := h.isOpen.stop_eq_none (by simp) (by simp)
    exact h.keep hbooks rfl rfl rfl rfl (by rintro _ _ _ _ _ ⟨⟩) (Or.inl hstop)
  | sweep hcheck hsweep =>
    simp only [hbooks.sweep_eq hcheck, Prod.mk.injEq] at hsweep
    obtain ⟨rfl, -⟩ := hsweep
    exact h.keep hbooks rfl rfl rfl rfl (by rintro _ _ _ _ _ ⟨⟩) (Or.inr (Or.inl rfl))
  | leave hcheck =>
    exact h.keep hbooks rfl rfl rfl rfl (by rintro _ _ _ _ _ ⟨⟩) (Or.inr (Or.inl rfl))

/-- The notes of a course fit its last point. -/
theorem Course.fit (hwell : search.WellFormed) (h : Course search costs notes config) :
    notes.Fit config := by
  induction h with
  | start => exact Notes.fit_start hwell
  | move hcourse hmove ih => exact ih.move hwell (hcourse.reached.books hwell) hmove

end PathSearch

end PatternCovering
