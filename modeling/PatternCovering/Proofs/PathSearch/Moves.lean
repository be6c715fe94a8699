import PatternCovering.PathSearch
import PatternCovering.Proofs.Failure
import PatternCovering.Proofs.Label.Pool
import Mathlib.Logic.Relation

/-!
# The moves of a path search

A search is taken apart into its smallest moves: a node is taken off the queue, a label is passed
over or begins to be extended, an extension along one arc is dropped or becomes a label, a visit is
closed. Between two moves a search is idle, in the middle of a visit, or in the middle of extending
a label, and the phase says what is still to be done there. A search that has not failed is a chain
of moves, so that a property of every point of a search is shown move by move.
-/

namespace PatternCovering

namespace PathSearch

variable {α : Type} [Quantity α]

/-- What a search is doing between two moves: nothing, a visit with the labels still to be looked
at, or the extension of a label with the arcs still to be followed. -/
inductive Phase (α : Type) where
  | idle
  | visiting (node : Nat) (todo : List Nat)
  | extending (node : Nat) (todo : List Nat) (id : Nat) (label : Label Int α)
    (arcs : List (Arc Int α × α))

/-- A point of a search. -/
structure Config (α : Type) where
  phase : Phase α
  state : State Int α

/-- Whether a search has ended by a fault. -/
def State.Failed (state : State Int α) : Prop := ∃ cause, state.stop = some (.fault cause)

/-- The state once a label was created and inserted: if it became live, its node waits. -/
def State.grown (state : State Int α) (pool : LabelPool Int α) (target : Nat) (inserted : Bool) :
    State Int α :=
  if inserted then
    enqueue { state with pool, extended := state.extended.push false } target
  else { state with pool, extended := state.extended.push false }

/-- The pool with the label that an extension along an arc creates. -/
def withExtension (pool : LabelPool Int α) (label : Label Int α) (arc : Arc Int α) (used : List α)
    (cost : α) : LabelPool Int α :=
  pool.create arc.target used cost (some label.id) (some arc.index)

/-- The moves of a search under the given adjusted costs of the arcs. A fault is no move. -/
inductive Move (search : PathSearch Int α) (costs : Array α) : Config α → Config α → Prop
  | pop {state : State Int α} {node : Nat} {rest : List Nat} (hstop : state.stop = none)
    (hqueue : state.queue = node :: rest) :
    Move search costs ⟨.idle, state⟩
      ⟨.visiting node (state.pool.liveAt node).toList, { state with
        queue := rest
        waiting := state.waiting.setIfInBounds node false
        visits := state.visits + 1 }⟩
  | skip {state : State Int α} {node id : Nat} {todo : List Nat}
    (hskip : ∀ label, state.pool.arena[id]? = some label →
      label.dominated = true ∨ state.extended[id]?.getD false = true) :
    Move search costs ⟨.visiting node (id :: todo), state⟩ ⟨.visiting node todo, state⟩
  | begin {state : State Int α} {node id : Nat} {todo : List Nat} {label : Label Int α}
    (hlabel : state.pool.arena[id]? = some label) (hflag : label.dominated = false)
    (hnew : state.extended[id]?.getD false = false) :
    Move search costs ⟨.visiting node (id :: todo), state⟩
      ⟨.extending node todo id label (search.arcsFrom costs node),
        { state with extended := state.extended.setIfInBounds id true }⟩
  | outside {state : State Int α} {node id : Nat} {todo : List Nat} {label : Label Int α}
    {arc : Arc Int α} {price : α} {arcs : List (Arc Int α × α)}
    (houtside : search.extension state.pool label arc price = .ok .outside) :
    Move search costs ⟨.extending node todo id label ((arc, price) :: arcs), state⟩
      ⟨.extending node todo id label arcs, state⟩
  | full {state : State Int α} {node id : Nat} {todo : List Nat} {label : Label Int α}
    {arc : Arc Int α} {price : α} {arcs : List (Arc Int α × α)}
    (hfull : search.extension state.pool label arc price = .ok .full) :
    Move search costs ⟨.extending node todo id label ((arc, price) :: arcs), state⟩
      ⟨.visiting node [], { state with stop := some .limit }⟩
  | grow {state : State Int α} {node id : Nat} {todo : List Nat} {label : Label Int α}
    {arc : Arc Int α} {price : α} {arcs : List (Arc Int α × α)} {used : List α} {cost : α}
    {pool : LabelPool Int α} {target : Nat} {inserted : Bool}
    (hinside : search.extension state.pool label arc price = .ok (.inside used cost))
    (htarget : (withExtension state.pool label arc used cost).nodeAt arc.target = .ok target)
    (hinsert : (withExtension state.pool label arc used cost).insert state.pool.numCreated
      search.settings.useDominance = (pool, .ok inserted)) :
    Move search costs ⟨.extending node todo id label ((arc, price) :: arcs), state⟩
      ⟨.extending node todo id label arcs, state.grown pool target inserted⟩
  | finish {state : State Int α} {node id : Nat} {todo : List Nat} {label : Label Int α} :
    Move search costs ⟨.extending node todo id label [], state⟩ ⟨.visiting node todo, state⟩
  | sweep {state : State Int α} {node count : Nat} {pool : LabelPool Int α}
    (hcheck : search.settings.useDominance = true)
    (hsweep : state.pool.sweep node = (pool, .ok count)) :
    Move search costs ⟨.visiting node [], state⟩ ⟨.idle, { state with pool }⟩
  | leave {state : State Int α} {node : Nat} (hcheck : search.settings.useDominance = false) :
    Move search costs ⟨.visiting node [], state⟩ ⟨.idle, state⟩

/-- A chain of moves. -/
abbrev Moves (search : PathSearch Int α) (costs : Array α) : Config α → Config α → Prop :=
  Relation.ReflTransGen (Move search costs)

/-- The points that a search comes through. -/
def Reached (search : PathSearch Int α) (costs : Array α) (config : Config α) : Prop :=
  Moves search costs ⟨.idle, search.start⟩ config

/-- A property of the beginning of a search that every move from a reached point keeps holds of
every reached point. -/
theorem Reached.induct {search : PathSearch Int α} {costs : Array α} {P : Config α → Prop}
    (hstart : P ⟨.idle, search.start⟩)
    (hmove : ∀ before after, Reached search costs before → Move search costs before after →
      P before → P after) {config : Config α} (h : Reached search costs config) : P config := by
  induction h with
  | refl => exact hstart
  | tail hreached hstep ih => exact hmove _ _ hreached hstep ih

/-- A search that always has room for another label is never stopped. -/
theorem Reached.stop_eq_none {search : PathSearch Int α} {costs : Array α}
    (hroom : ∀ pool, search.full pool = .ok false) {config : Config α}
    (h : Reached search costs config) : config.state.stop = none := by
  refine h.induct (P := fun config => config.state.stop = none) rfl ?_
  intro before after _ hmove hnone
  cases hmove with
  | pop hstop hqueue => exact hnone
  | skip hskip => exact hnone
  | begin hlabel hflag hnew => exact hnone
  | outside houtside => exact hnone
  | full hfull =>
    obtain ⟨used, -, hfull⟩ := bind_eq_ok.mp hfull
    obtain ⟨within, -, hfull⟩ := bind_eq_ok.mp hfull
    cases within with
    | false => cases hfull
    | true =>
      obtain ⟨answer, hanswer, hfull⟩ := bind_eq_ok.mp hfull
      rw [hroom, Except.ok.injEq] at hanswer
      subst hanswer
      obtain ⟨cost, -, hfull⟩ := bind_eq_ok.mp hfull
      cases hfull
  | @grow state node id todo label arc price arcs used cost pool target inserted hinside htarget
      hinsert =>
    simp only [State.grown, enqueue]
    repeat' split
    all_goals exact hnone
  | finish => exact hnone
  | sweep hcheck hsweep => exact hnone
  | leave hcheck => exact hnone

section Simulation

variable {search : PathSearch Int α} {costs : Array α} {state : State Int α}

/-- A stopped search does not extend a label along an arc. -/
theorem extendAlong_of_stop (h : state.stop.isSome = true) (label : Label Int α) (arc : Arc Int α)
    (price : α) : search.extendAlong label state arc price = state := by
  rw [extendAlong, if_pos h]

/-- A label grows into a new one that is inserted at the end of the arc, unless that fails. -/
theorem grow_cases (search : PathSearch Int α) (state : State Int α) (label : Label Int α)
    (arc : Arc Int α) (used : List α) (cost : α) :
    (∃ pool target inserted,
      (withExtension state.pool label arc used cost).nodeAt arc.target = .ok target ∧
      (withExtension state.pool label arc used cost).insert state.pool.numCreated
        search.settings.useDominance = (pool, .ok inserted) ∧
      search.grow state label arc used cost = state.grown pool target inserted) ∨
    (search.grow state label arc used cost).Failed := by
  obtain ⟨known, queue, waiting, extended, visits, stop⟩ := state
  simp only [grow, withExtension]
  generalize known.create arc.target used cost (some label.id) (some arc.index) = created
  rcases htarget : created.nodeAt arc.target with cause | target
  · exact Or.inr ⟨cause, rfl⟩
  · rcases hinsert : created.insert known.numCreated search.settings.useDominance with
      ⟨pool, cause | inserted⟩
    · exact Or.inr ⟨cause, rfl⟩
    · exact Or.inl ⟨pool, target, inserted, rfl, rfl, rfl⟩

/-- What extending a label along an arc does to a search that was not stopped. -/
theorem extendAlong_cases (search : PathSearch Int α) (hstop : state.stop = none)
    (label : Label Int α) (arc : Arc Int α) (price : α) :
    (search.extension state.pool label arc price = .ok .outside ∧
      search.extendAlong label state arc price = state) ∨
    (search.extension state.pool label arc price = .ok .full ∧
      search.extendAlong label state arc price = { state with stop := some .limit }) ∨
    (∃ used cost pool target inserted,
      search.extension state.pool label arc price = .ok (.inside used cost) ∧
      (withExtension state.pool label arc used cost).nodeAt arc.target = .ok target ∧
      (withExtension state.pool label arc used cost).insert state.pool.numCreated
        search.settings.useDominance = (pool, .ok inserted) ∧
      search.extendAlong label state arc price = state.grown pool target inserted) ∨
    (search.extendAlong label state arc price).Failed := by
  simp only [extendAlong, hstop, Option.isSome_none, Bool.false_eq_true, if_false]
  rcases hextension : search.extension state.pool label arc price with cause | result
  · exact Or.inr (Or.inr (Or.inr ⟨cause, rfl⟩))
  · cases result with
    | outside => exact Or.inl ⟨rfl, rfl⟩
    | full => exact Or.inr (Or.inl ⟨rfl, rfl⟩)
    | inside used cost =>
      rcases grow_cases search state label arc used cost with
        ⟨pool, target, inserted, htarget, hinsert, hgrown⟩ | hfailed
      · exact Or.inr (Or.inr (Or.inl ⟨used, cost, pool, target, inserted, rfl, htarget, hinsert,
          hgrown⟩))
      · exact Or.inr (Or.inr (Or.inr hfailed))

/-- Extends a label along some arcs one after the other. -/
def extendArcs (search : PathSearch Int α) (label : Label Int α) (arcs : List (Arc Int α × α))
    (state : State Int α) : State Int α :=
  arcs.foldl (fun state (arc, price) => search.extendAlong label state arc price) state

/-- A stopped search follows no arc. -/
theorem extendArcs_of_stop (h : state.stop.isSome = true) (label : Label Int α)
    (arcs : List (Arc Int α × α)) : search.extendArcs label arcs state = state := by
  induction arcs with
  | nil => rfl
  | cons first rest ih =>
    obtain ⟨arc, price⟩ := first
    change search.extendArcs label rest (search.extendAlong label state arc price) = state
    rw [extendAlong_of_stop h]
    exact ih

/-- Following arcs is a chain of moves that ends when all of them are followed or the limit on labels
is met. -/
theorem moves_extendArcs (costs : Array α) (node id : Nat) (todo : List Nat) {label : Label Int α}
    (arcs : List (Arc Int α × α)) (hstop : state.stop = none)
    (h : ¬ (search.extendArcs label arcs state).Failed) :
    ((search.extendArcs label arcs state).stop = none ∧
      Moves search costs ⟨.extending node todo id label arcs, state⟩
        ⟨.extending node todo id label [], search.extendArcs label arcs state⟩) ∨
    ((search.extendArcs label arcs state).stop = some .limit ∧
      Moves search costs ⟨.extending node todo id label arcs, state⟩
        ⟨.visiting node [], search.extendArcs label arcs state⟩) := by
  induction arcs generalizing state with
  | nil => exact Or.inl ⟨hstop, Relation.ReflTransGen.refl⟩
  | cons first rest ih =>
    obtain ⟨arc, price⟩ := first
    have hcons : search.extendArcs label ((arc, price) :: rest) state =
      search.extendArcs label rest (search.extendAlong label state arc price) := rfl
    rw [hcons] at h ⊢
    rcases extendAlong_cases search hstop label arc price with
      ⟨houtside, heq⟩ | ⟨hfull, heq⟩ | ⟨used, cost, pool, target, inserted, hinside, htarget,
        hinsert, heq⟩ | ⟨cause, hcause⟩
    · rw [heq] at h ⊢
      exact (ih hstop h).imp
        (fun hnone => ⟨hnone.1, hnone.2.head (Move.outside houtside)⟩)
        (fun hlimit => ⟨hlimit.1, hlimit.2.head (Move.outside houtside)⟩)
    · rw [heq, extendArcs_of_stop rfl]
      exact Or.inr ⟨rfl, Relation.ReflTransGen.single (Move.full hfull)⟩
    · have hgrown : (state.grown pool target inserted).stop = none := by
        simp only [State.grown, enqueue]
        repeat' split
        all_goals exact hstop
      rw [heq] at h ⊢
      exact (ih hgrown h).imp
        (fun hnone => ⟨hnone.1, hnone.2.head (Move.grow hinside htarget hinsert)⟩)
        (fun hlimit => ⟨hlimit.1, hlimit.2.head (Move.grow hinside htarget hinsert)⟩)
    · rw [extendArcs_of_stop (by simp [hcause])] at h
      exact absurd ⟨cause, hcause⟩ h

/-- A search that was not stopped extends a label along all arcs, unless it was dominated or
extended before. -/
theorem extendLabel_eq (hstop : state.stop = none) (arcs : List (Arc Int α × α)) (id : Nat) :
    search.extendLabel arcs state id =
      match state.pool.arena[id]? with
      | none => state
      | some label =>
        if label.dominated || state.extended[id]?.getD false then state
        else search.extendArcs label arcs
          { state with extended := state.extended.setIfInBounds id true } := by
  rw [extendLabel, if_neg (by simp [hstop])]
  cases state.pool.arena[id]? <;> rfl

/-- A stopped search extends no label. -/
theorem extendLabel_of_stop (h : state.stop.isSome = true) (arcs : List (Arc Int α × α)) (id : Nat) :
    search.extendLabel arcs state id = state := by
  rw [extendLabel, if_pos h]

/-- A stopped search extends none of some labels. -/
theorem extendLabels_of_stop (h : state.stop.isSome = true) (arcs : List (Arc Int α × α))
    (ids : List Nat) : ids.foldl (search.extendLabel arcs) state = state := by
  induction ids with
  | nil => rfl
  | cons first rest ih =>
    rw [List.foldl_cons, extendLabel_of_stop h]
    exact ih

/-- Looking at a label in the middle of a visit is a chain of moves that ends before the next label,
or at the end of the visit if the limit on labels is met. -/
theorem moves_extendLabel {node id : Nat} (todo : List Nat) (hstop : state.stop = none)
    (h : ¬ (search.extendLabel (search.arcsFrom costs node) state id).Failed) :
    ((search.extendLabel (search.arcsFrom costs node) state id).stop = none ∧
      Moves search costs ⟨.visiting node (id :: todo), state⟩
        ⟨.visiting node todo, search.extendLabel (search.arcsFrom costs node) state id⟩) ∨
    ((search.extendLabel (search.arcsFrom costs node) state id).stop = some .limit ∧
      Moves search costs ⟨.visiting node (id :: todo), state⟩
        ⟨.visiting node [], search.extendLabel (search.arcsFrom costs node) state id⟩) := by
  rw [extendLabel_eq hstop] at h ⊢
  rcases hlabel : state.pool.arena[id]? with - | label
  · have hskip : Move search costs ⟨.visiting node (id :: todo), state⟩
        ⟨.visiting node todo, state⟩ := Move.skip (by simp [hlabel])
    exact Or.inl ⟨hstop, Relation.ReflTransGen.single hskip⟩
  · by_cases hdone : (label.dominated || state.extended[id]?.getD false) = true
    · have hskip : Move search costs ⟨.visiting node (id :: todo), state⟩
          ⟨.visiting node todo, state⟩ := by
        refine Move.skip fun other hother => ?_
        rw [hlabel, Option.some.injEq] at hother
        rw [← hother]
        simpa using hdone
      simp only [hdone, if_true]
      exact Or.inl ⟨hstop, Relation.ReflTransGen.single hskip⟩
    · simp only [hlabel, hdone, Bool.false_eq_true, if_false] at h ⊢
      have hbegin : Move search costs ⟨.visiting node (id :: todo), state⟩
          ⟨.extending node todo id label (search.arcsFrom costs node),
            { state with extended := state.extended.setIfInBounds id true }⟩ := by
        simp only [Bool.or_eq_true, not_or, Bool.not_eq_true] at hdone
        exact Move.begin hlabel hdone.1 hdone.2
      have hopen : ({ state with extended := state.extended.setIfInBounds id true } :
          State Int α).stop = none := hstop
      rcases moves_extendArcs costs node id todo _ hopen h with
        ⟨hnone, hmoves⟩ | ⟨hlimit, hmoves⟩
      · exact Or.inl ⟨hnone, (hmoves.head hbegin).tail Move.finish⟩
      · exact Or.inr ⟨hlimit, hmoves.head hbegin⟩

/-- Looking at labels one after the other in a visit is a chain of moves to the end of the visit. -/
theorem moves_extendLabels {node : Nat} (ids : List Nat) (hstop : state.stop = none)
    (h : ¬ (ids.foldl (search.extendLabel (search.arcsFrom costs node)) state).Failed) :
    Moves search costs ⟨.visiting node ids, state⟩
      ⟨.visiting node [], ids.foldl (search.extendLabel (search.arcsFrom costs node)) state⟩ := by
  induction ids generalizing state with
  | nil => exact Relation.ReflTransGen.refl
  | cons first rest ih =>
    rw [List.foldl_cons] at h ⊢
    have hfirst : ¬ (search.extendLabel (search.arcsFrom costs node) state first).Failed := by
      rintro ⟨cause, hcause⟩
      rw [extendLabels_of_stop (by simp [hcause])] at h
      exact h ⟨cause, hcause⟩
    rcases moves_extendLabel rest hstop hfirst with ⟨hnone, hmoves⟩ | ⟨hlimit, hmoves⟩
    · exact hmoves.trans (ih hnone h)
    · rw [extendLabels_of_stop (by simp [hlimit])]
      exact hmoves

/-- A step of a search that is not finished is a chain of moves from one idle point to the next. -/
theorem moves_step (hfinished : state.isFinished = false)
    (h : ¬ (search.step costs state).Failed) :
    Moves search costs ⟨.idle, state⟩ ⟨.idle, search.step costs state⟩ := by
  simp only [State.isFinished, Bool.or_eq_false_iff, Option.isSome_eq_false_iff,
    Option.isNone_iff_eq_none] at hfinished
  obtain ⟨hqueue, hstop⟩ := hfinished
  obtain ⟨node, rest, hqueue⟩ : ∃ node rest, state.queue = node :: rest := by
    cases hcases : state.queue with
    | nil => simp [hcases] at hqueue
    | cons node rest => exact ⟨node, rest, rfl⟩
  have hpop : Move search costs _ _ := Move.pop hstop hqueue
  simp only [step, hqueue, visit, ← Array.foldl_toList] at h ⊢
  generalize hlive : (state.pool.liveAt node).toList = ids at h hpop ⊢
  generalize hpopped : ({ state with
    queue := rest
    waiting := state.waiting.setIfInBounds node false
    visits := state.visits + 1 } : State Int α) = popped at h hpop ⊢
  have hnone : popped.stop = none := by rw [← hpopped]; exact hstop
  generalize hvisited : ids.foldl (search.extendLabel (search.arcsFrom costs node)) popped =
    visited at h ⊢
  have hmoves : ¬ visited.Failed → Moves search costs ⟨.idle, state⟩
      ⟨.visiting node [], visited⟩ := by
    intro hvisit
    rw [← hvisited] at hvisit ⊢
    exact (moves_extendLabels _ hnone hvisit).head hpop
  cases hcheck : search.settings.useDominance with
  | false =>
    simp only [hcheck, Bool.false_eq_true, if_false] at h ⊢
    exact (hmoves h).tail (Move.leave hcheck)
  | true =>
    simp only [hcheck, if_true] at h ⊢
    have hvisit : ¬ visited.Failed := by
      rintro ⟨cause, hcause⟩
      simp only [tidy, hcause] at h
      exact h ⟨cause, hcause⟩
    rcases hsweep : visited.pool.sweep node with ⟨pool, cause | count⟩
    · refine absurd ?_ h
      simp only [tidy, hsweep]
      split
      · next heq => exact ⟨_, heq⟩
      · exact ⟨cause, rfl⟩
    · have htidy : tidy visited node = { visited with pool } := by
        simp only [tidy, hsweep]
        split
        · next heq => exact absurd ⟨_, heq⟩ hvisit
        · rfl
      rw [htidy]
      exact (hmoves hvisit).tail (Move.sweep hcheck hsweep)

/-- A run that has not failed is a chain of moves. -/
theorem moves_run (fuel : Nat) (h : ¬ (search.run costs fuel state).Failed) :
    Moves search costs ⟨.idle, state⟩ ⟨.idle, search.run costs fuel state⟩ := by
  induction fuel generalizing state with
  | zero => exact Relation.ReflTransGen.refl
  | succ fuel ih =>
    rw [run] at h ⊢
    split
    · exact Relation.ReflTransGen.refl
    · next hfinished =>
      rw [if_neg hfinished] at h
      have hstep : ¬ (search.step costs state).Failed := by
        rintro ⟨cause, hcause⟩
        have hdone : (search.step costs state).isFinished = true := by
          simp [State.isFinished, hcause]
        have hrun : search.run costs fuel (search.step costs state) = search.step costs state := by
          cases fuel with
          | zero => rfl
          | succ fuel => rw [run, if_pos hdone]
        rw [hrun] at h
        exact h ⟨cause, hcause⟩
      exact (moves_step (by simpa using hfinished) hstep).trans (ih h)

/-- A search that ends without a fault has come to an idle point at which it is finished. -/
theorem reached_of_explore {fuel : Nat} {duals : List α} {final : State Int α}
    (h : search.explore fuel duals = .ok final) :
    ∃ costs, search.arcCosts duals = .ok costs ∧ Reached search costs ⟨.idle, final⟩ ∧
      final.isFinished = true := by
  obtain ⟨costs, hcosts, h⟩ := bind_eq_ok.mp h
  refine ⟨costs, hcosts, ?_⟩
  dsimp only at h
  split at h
  · simp at h
  · next hfault =>
    split at h
    · next hfinished =>
      rw [← Except.ok.inj h]
      refine ⟨moves_run fuel ?_, hfinished⟩
      rintro ⟨cause, hcause⟩
      exact hfault cause hcause
    · simp at h

end Simulation

end PathSearch

end PatternCovering
