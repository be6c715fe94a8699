import PatternCovering.Proofs.Cover.Alignment
import PatternCovering.Proofs.Cover.Reached

/-!
# The integer restriction leaves the relaxation

An integer solve makes the variables of all columns integer, solves, and makes them continuous again,
whatever came of the solve. The handles of a cover are those of known variables, so that neither of the
two passes can fail, and variables that belong to no column are left alone by both. Where the variables
of the columns were continuous before, the model is afterwards what it was, and the next solve is one
of the same relaxation.
-/

namespace PatternCovering

namespace Model

variable {α : Type}

/-- A model in which the variables of some handles have a flag for being integer. -/
def withFlags (handles : List Handle) (flag : Datum) (model : Model α) : Model α :=
  { model with
    vars := model.vars.mapIdx fun place known =>
      if handles.any (·.index == place) then { known with isInteger := flag } else known }

/-- The flags of some handles are given one after the other. -/
theorem withFlags_cons (handle : Handle) (rest : List Handle) (flag : Datum) (model : Model α) :
    model.withFlags (handle :: rest) flag = (model.setInteger handle.index flag).withFlags rest flag := by
  simp only [withFlags, setInteger, Model.mk.injEq, and_true, true_and]
  refine List.ext_getElem? fun place => ?_
  rw [List.getElem?_mapIdx, List.getElem?_mapIdx, List.getElem?_modify]
  cases model.vars[place]? with
  | none => rfl
  | some known =>
    by_cases hhere : handle.index = place
    · cases rest.any (·.index == place) <;> simp [hhere]
    · cases hrest : rest.any (·.index == place) <;> simp [hhere, hrest]

/-- Of two flags that are given one after the other the second one stays. -/
theorem withFlags_withFlags (handles : List Handle) (first second : Datum) (model : Model α) :
    (model.withFlags handles first).withFlags handles second = model.withFlags handles second := by
  simp only [withFlags, Model.mk.injEq, and_true, true_and]
  refine List.ext_getElem? fun place => ?_
  rw [List.getElem?_mapIdx, List.getElem?_mapIdx, List.getElem?_mapIdx]
  cases model.vars[place]? with
  | none => rfl
  | some known => cases handles.any (·.index == place) <;> rfl

/-- A flag that all variables of some handles have already changes nothing. -/
theorem withFlags_eq_self {handles : List Handle} {flag : Datum} {model : Model α}
    (h : ∀ handle ∈ handles, ∀ known, model.vars[handle.index]? = some known →
      known.isInteger = flag) : model.withFlags handles flag = model := by
  have hvars : (model.vars.mapIdx fun place known =>
      if handles.any (·.index == place) then { known with isInteger := flag } else known) =
        model.vars := by
    refine List.ext_getElem? fun place => ?_
    rw [List.getElem?_mapIdx]
    cases hknown : model.vars[place]? with
    | none => rfl
    | some known =>
      by_cases hhere : handles.any (·.index == place) = true
      · obtain ⟨handle, hhandle, hindex⟩ := List.any_eq_true.mp hhere
        obtain rfl := beq_iff_eq.mp hindex
        rw [Option.map_some, if_pos hhere, ← h handle hhandle known hknown]
      · rw [Option.map_some, if_neg hhere]
  rw [withFlags, hvars]

end Model

variable {ε α : Type} [Quantity α]

/-- Whether the model that an engine holds can be read off its states: a new one has no variables, a
variable is appended, a known one is made integer or continuous without fail, and a solve changes
nothing, however it ends. Whatever else is done, the variables stay as many as they are. -/
structure Engine.Shows (engine : Engine ε α) (model : ε → Model α) : Prop where
  create : ∀ state sense after, engine.create state sense = (after, .ok ()) → (model after).vars = []
  addVariable : ∀ state added after, engine.addVariable state added = .ok after →
    model after = (model state).addVariable added
  length_addRow : ∀ state row terms,
    (model (engine.addRow state row terms).1).vars.length = (model state).vars.length
  length_addCoefficient : ∀ state row column amount,
    (model (engine.addCoefficient state row column amount).1).vars.length =
      (model state).vars.length
  length_setInteger : ∀ state column isInteger after,
    engine.setInteger state column isInteger = .ok after →
      (model after).vars.length = (model state).vars.length
  setInteger : ∀ state (place : Nat) isInteger, place < (model state).vars.length →
    ∃ after, engine.setInteger state (.int place) isInteger = .ok after ∧
      model after = (model state).setInteger place isInteger
  solve : ∀ state, model (engine.solve state).1 = model state

/-- The model that a recorder has recorded can be read off it. -/
theorem Recorder.shows : (Recorder.engine (α := α)).Shows (·.model) where
  create _ _ _ hcreated := by rw [← (Prod.mk.inj hcreated).1]
  addVariable _ _ _ hadded := by rw [← Except.ok.inj hadded]
  length_addRow _ _ _ := rfl
  length_addCoefficient recorder row column amount := by
    rcases recorder.addCoefficient_cases row column amount with ⟨fault, hrefused⟩ | htaken
    · rw [hrefused]
    · rw [htaken]
      rfl
  length_setInteger _ _ _ _ hset := by
    obtain ⟨place, -, hset⟩ := bind_eq_ok.mp hset
    rw [← Except.ok.inj hset]
    exact List.length_modify ..
  setInteger recorder place isInteger hlt := by
    have hplace : Position.place recorder.model.vars.length (Datum.int place) = .ok place := by
      change Position.place recorder.model.vars.length (place : Int) = .ok place
      exact Position.place_eq_ok (Int.natCast_nonneg place) hlt
    refine ⟨{ recorder with model := recorder.model.setInteger place isInteger }, ?_, rfl⟩
    simp only [engine]
    rw [hplace]
    rfl
  solve recorder := by
    change (recorder.advance).1.model = _
    rw [advance]
    split
    · rfl
    · rfl

namespace Problem

/-- Whether a problem was created and the model of its engine has as many variables. -/
def IsInStep (model : ε → Model α) (problem : Problem ε) : Prop :=
  problem.isCreated = true ∧ (model problem.engine).vars.length = problem.vars.length

/-- Every call keeps a problem in step with the model of its engine. -/
theorem kept_isInStep {engine : Engine ε α} {model : ε → Model α} (h : engine.Shows model) :
    Kept engine (IsInStep model) where
  call problem call hstep := by
    have hcomes := comes_perform engine problem call
    generalize call.perform engine problem = result at hcomes
    cases hcomes with
    | refused hrefused =>
      cases hrefused with
      | unchanged => exact hstep
      | create hnew hengine => exact absurd (hnew.symm.trans hstep.1) Bool.false_ne_true
      | @addConstraint row terms modifiable checked state fault hengine =>
        have hlength := h.length_addRow problem.engine row checked
        rw [hengine] at hlength
        exact ⟨hstep.1, hlength.trans hstep.2⟩
      | @addCoefficient row column amount coefficient place other state fault hengine =>
        have hlength := h.length_addCoefficient problem.engine place other coefficient
        rw [hengine] at hlength
        exact ⟨hstep.1, hlength.trans hstep.2⟩
      | @solve state fault hengine =>
        have hmodel := h.solve problem.engine
        rw [hengine] at hmodel
        exact ⟨hstep.1, (congrArg (·.vars.length) hmodel).trans hstep.2⟩
    | accepted haccepted =>
      cases haccepted with
      | create hnew hengine => exact absurd (hnew.symm.trans hstep.1) Bool.false_ne_true
      | @addVariable added handle state hcreated hengine hhandle =>
        refine ⟨hstep.1, ?_⟩
        rw [h.addVariable _ _ _ hengine, Model.addVariable, List.length_append, List.length_append,
          hstep.2]
        rfl
      | @addConstraint row terms modifiable handle checked state hcreated hterms hengine hhandle =>
        have hlength := h.length_addRow problem.engine row checked
        rw [hengine] at hlength
        exact ⟨hstep.1, hlength.trans hstep.2⟩
      | setModifiable | isModifiable | status | ask => exact hstep
      | @addCoefficient row rowName column columnName flag amount coefficient state hrow hcolumn
          hflag htruthy hreal hengine =>
        have hlength := h.length_addCoefficient problem.engine row column coefficient
        rw [hengine] at hlength
        exact ⟨hstep.1, hlength.trans hstep.2⟩
      | setInteger hcolumn hengine =>
        exact ⟨hstep.1, (h.length_setInteger _ _ _ _ hengine).trans hstep.2⟩
      | @solve state status hcreated hengine =>
        have hmodel := h.solve problem.engine
        rw [hengine] at hmodel
        exact ⟨hstep.1, (congrArg (·.vars.length) hmodel).trans hstep.2⟩
  journal _ _ hstep := hstep

omit [Quantity α] in
/-- Solving a problem that was created asks the engine. -/
theorem engine_solve (engine : Engine ε α) {problem : Problem ε} (h : problem.isCreated = true) :
    (problem.solve engine).1.engine = (engine.solve problem.engine).1 := by
  rcases problem.solve_cases engine with
    ⟨hnew, -⟩ | ⟨state, fault, hasked, hsolve⟩ | ⟨state, status, hasked, hsolve⟩
  · exact absurd (hnew.symm.trans h) Bool.false_ne_true
  · rw [hsolve, hasked]
  · rw [hsolve, hasked]
    rfl

end Problem

namespace Cover

variable {engine : Engine ε α} {model : ε → Model α} {cover : Cover ε α}

/-- A cover that can be reached is in step with the model of its engine. -/
theorem Reached.isInStep (h : engine.Shows model)
    (hreached : Reached engine
      (fun before after => (model after).vars.length = (model before).vars.length) cover) :
    cover.problem.IsInStep model := by
  refine hreached.keeps (Problem.kept_isInStep h) ?_ ?_
  · intro state listener name created hcreate hcreated
    obtain ⟨after, hafter, rfl⟩ := Problem.of_create hcreate
    exact ⟨hcreated, congrArg List.length (h.create _ _ _ hafter)⟩
  · exact fun problem state hsame hstep => ⟨hstep.1, hsame.trans hstep.2⟩

omit [Quantity α] in
/-- A variable of the problem is made integer or continuous. -/
theorem exists_setInteger (h : engine.Shows model) {problem : Problem ε}
    (hstep : problem.IsInStep model) {handle : Handle} (hlt : handle.index < problem.vars.length)
    (flag : Datum) :
    ∃ state, problem.setInteger engine handle.asVariable flag =
        .ok { problem with engine := state, status := .notSolved } ∧
      model state = (model problem.engine).setInteger handle.index flag := by
  obtain ⟨state, hstate, hmodel⟩ := h.setInteger problem.engine handle.index flag (hstep.2 ▸ hlt)
  have hindex : problem.checkVariable handle.asVariable = .ok (.int handle.index) :=
    Problem.checkVariable_eq_ok_iff.mpr ⟨handle.name, rfl, by
      rw [Datum.lt_int]
      exact congrArg Except.ok (decide_eq_false (Int.not_lt.mpr (Int.natCast_nonneg _))), by
      rw [Datum.le_int]
      exact congrArg Except.ok (decide_eq_false (Int.not_le.mpr (Int.ofNat_lt.mpr hlt)))⟩
  refine ⟨state, ?_, hmodel⟩
  rw [Problem.setInteger, hindex]
  simp only [bind, Except.bind, hstate]
  rfl

/-- The variables of handles of the problem are made integer or continuous, and nothing else happens
to the model. -/
theorem exists_setIntegers (h : engine.Shows model) (isInteger : Bool) {handles : List Handle}
    {problem : Problem ε} (hstep : problem.IsInStep model)
    (hlt : ∀ handle ∈ handles, handle.index < problem.vars.length) :
    ∃ state status, setIntegers engine isInteger handles problem =
        ({ problem with engine := state, status }, .ok ()) ∧
      model state = (model problem.engine).withFlags handles (.flag isInteger) ∧
      (handles ≠ [] ∨ problem.status = .notSolved → status = .notSolved) := by
  induction handles generalizing problem with
  | nil =>
    refine ⟨problem.engine, problem.status, rfl, (Model.withFlags_eq_self (by simp)).symm, ?_⟩
    exact fun hstatus => hstatus.resolve_left (not_not.mpr rfl)
  | cons handle rest ih =>
    obtain ⟨hfirst, hrest⟩ := List.forall_mem_cons.mp hlt
    obtain ⟨state, hset, hmodel⟩ := exists_setInteger h hstep hfirst (.flag isInteger)
    have hnext := (Problem.kept_isInStep h).setInteger hstep hset
    obtain ⟨final, status, hsets, hfinal, hstatus⟩ := ih hnext hrest
    refine ⟨final, status, ?_, ?_, fun _ => hstatus (Or.inr rfl)⟩
    · rw [setIntegers, hset]
      exact hsets
    · rw [hfinal, hmodel, Model.withFlags_cons]

/-- Whether an integer solve has left a cover as it found it. -/
structure LeavesRelaxation (engine : Engine ε α) (model : ε → Model α) (cover after : Cover ε α) :
    Prop where
  /-- The engine has solved once, with the variables of all columns integer and all else as it was, and
  only had these variables made continuous again afterwards. -/
  solved : ∃ changed restored : Problem ε,
    setIntegers engine true cover.handles cover.problem = (changed, .ok ()) ∧
    model changed.engine = (model cover.problem.engine).withFlags cover.handles (.flag true) ∧
    setIntegers engine false cover.handles (changed.solve engine).1 = (restored, .ok ()) ∧
    (changed.solve engine).1.engine = (engine.solve changed.engine).1 ∧
    after = { cover with problem := restored }
  /-- The model is what it was. -/
  model_eq : model after.problem.engine = model cover.problem.engine
  /-- The books of the problem are what they were, but it counts as not solved. -/
  keepsBooks : cover.problem.KeepsBooks after.problem
  status_eq : after.problem.status = .notSolved
  pool_eq : after.pool = cover.pool
  last_eq : after.last = cover.last
  dualVector_eq : after.dualVector = cover.dualVector
  /-- A solve of the relaxation asks the engine in the state in which it was left. -/
  next_solve : ∀ tolerance, (after.solveRelaxation engine tolerance).1.problem.engine =
    (engine.solve after.problem.engine).1

/-- A sound cover whose columns have continuous variables is left as it was found. -/
theorem Sound.leavesRelaxation (h : engine.Shows model) (hsound : cover.Sound)
    (hstep : cover.problem.IsInStep model) (hcolumns : cover.pool.columns ≠ [])
    (hcontinuous : ∀ handle ∈ cover.handles, ∀ known,
      (model cover.problem.engine).vars[handle.index]? = some known → known.isInteger = .flag false)
    (tolerance : α) :
    LeavesRelaxation engine model cover (cover.solveRestriction engine tolerance).1 := by
  have hhandles : cover.handles ≠ [] := by
    rw [← List.length_pos_iff, hsound.length_handles]
    exact List.length_pos_iff.mpr hcolumns
  obtain ⟨state, status, hset, hmodel, -⟩ := exists_setIntegers h true hstep hsound.handle_lt
  have hchanged := (Problem.kept_isInStep h).setIntegers hstep true cover.handles
  have hbeyond := (Problem.kept_isBeyond engine _).solve
    ((Problem.kept_isBeyond engine _).setIntegers hsound.isBeyond true cover.handles)
  have hsolved := (Problem.kept_isInStep h).solve hchanged
  rw [hset] at hchanged hsolved hbeyond
  have hengine := Problem.engine_solve engine hchanged.1
  obtain ⟨final, left, hreset, hfinal, hleft⟩ := exists_setIntegers h false hsolved
    fun handle hhandle => (hsound.handle_lt handle hhandle).trans_le hbeyond.2
  have hafter : (cover.solveRestriction engine tolerance).1 = { cover with problem :=
      { (Problem.solve engine { cover.problem with engine := state, status }).1 with
        engine := final, status := left } } := by
    simp only [Cover.solveRestriction, hset]
    rw [hreset]
  have hsame : model final = model cover.problem.engine := by
    rw [hfinal, hengine, h.solve, hmodel, Model.withFlags_withFlags,
      Model.withFlags_eq_self hcontinuous]
  have hkeeps := Problem.KeepsBooks.trans (⟨state, status, cover.problem.journal, rfl⟩ :
    cover.problem.KeepsBooks { cover.problem with engine := state, status })
      (Problem.keepsBooks_solve engine _)
  have hcreated := hsolved.1
  exact {
    solved := ⟨_, _, hset, hmodel, hreset, hengine, hafter⟩
    model_eq := by rw [hafter]; exact hsame
    keepsBooks := by
      rw [hafter]
      exact hkeeps.trans ⟨final, left, _, rfl⟩
    status_eq := by rw [hafter]; exact hleft (Or.inl hhandles)
    pool_eq := by rw [hafter]
    last_eq := by rw [hafter]
    dualVector_eq := by rw [hafter]; rfl
    next_solve := fun next => by
      obtain ⟨last, hnext⟩ :=
        (cover.solveRestriction engine tolerance).1.exists_solveRelaxation engine next
      rw [hnext]
      refine Problem.engine_solve engine ?_
      rw [hafter]
      exact hcreated }

/-- A relaxation that is not solved leaves the latest solution. -/
theorem last_of_solveRelaxation_error {tolerance : α} {fault : Fault}
    (h : (cover.solveRelaxation engine tolerance).2 = .error fault) :
    (cover.solveRelaxation engine tolerance).1.last = cover.last := by
  simp only [Cover.solveRelaxation] at h ⊢
  split
  · rfl
  · next solved status hsolve =>
    rw [hsolve] at h
    simp only at h
    split
    · next hoptimal =>
      rw [if_pos hoptimal] at h
      split
      · rfl
      · next solution hcollect =>
        rw [hcollect] at h
        cases h
    · rfl

/-- However a cover was reached, and with whatever variables in its problem that belong to no column:
if it has columns and their variables are continuous, an integer solve makes them integer for one solve
and leaves the model, the columns, the latest solution and its duals as they were, and the problem as
not solved, whatever the engine does when it solves or is asked for values; the next solve is one of
the same model. A relaxation that fails leaves the latest solution and its duals as well. -/
theorem leavesRelaxation_of_reached (h : engine.Shows model)
    (hreached : Reached engine
      (fun before after => (model after).vars.length = (model before).vars.length) cover)
    (hcolumns : cover.pool.columns ≠ [])
    (hcontinuous : ∀ handle ∈ cover.handles, ∀ known,
      (model cover.problem.engine).vars[handle.index]? = some known → known.isInteger = .flag false)
    (tolerance : α) :
    LeavesRelaxation engine model cover (cover.solveRestriction engine tolerance).1 ∧
      ∀ fault, (cover.solveRelaxation engine tolerance).2 = .error fault →
        (cover.solveRelaxation engine tolerance).1.last = cover.last ∧
        (cover.solveRelaxation engine tolerance).1.dualVector = cover.dualVector := by
  refine ⟨hreached.sound.leavesRelaxation h (hreached.isInStep h) hcolumns hcontinuous tolerance,
    fun fault hfault => ?_⟩
  have hlast := last_of_solveRelaxation_error hfault
  exact ⟨hlast, by rw [dualVector, dualVector, hlast]⟩

/-- A cover of two items with a column for each of them, over a recorder that finds no solution. -/
def fruitlessPair : Cover (Recorder Rat) Rat × Except Fault Unit :=
  Cover.build Recorder.engine
    { engine :=
        { script := [{ status := .infeasible, objective := .ok none, dual := fun _ => .ok 0 }]
          primal := usualValue } }
    [⟨1, 2, .null, Nat.one_pos⟩, ⟨2, 1, .null, Nat.zero_lt_two⟩] (.text "pair") true

/-- A cover over a recorder that from now on refuses coefficients on some rows. -/
def refusing (cover : Cover (Recorder Rat) Rat) (refuses : (row : Datum) → Except Fault Bool) :
    Cover (Recorder Rat) Rat :=
  { cover with problem :=
      { cover.problem with engine := { cover.problem.engine with refuses } } }

/-- What a recorder refuses is changed from outside. -/
theorem Reached.refusing {cover : Cover (Recorder Rat) Rat}
    (h : Reached Recorder.engine
      (fun before after => after.model.vars.length = before.model.vars.length) cover)
    (refuses : (row : Datum) → Except Fault Bool) :
    Reached Recorder.engine
      (fun before after => after.model.vars.length = before.model.vars.length)
      (cover.refusing refuses) :=
  h.outside rfl

/-- The pair after a third column was given up at its second coefficient. -/
def orphanPair : Cover (Recorder Rat) Rat :=
  refusing ((refusing fruitlessPair.1 fun row => .ok (row.eq (.int 1))).addColumn Recorder.engine
    { counts := [1, 2], cost := Quantity.one } .null).1 fun _ => .ok false

/-- An integer solve that finds no solution leaves a cover with a variable that belongs to no column. -/
theorem leavesRelaxation_orphanPair :
    orphanPair.handles.map (·.index) = [0, 1] ∧ orphanPair.problem.vars.length = 3 ∧
      (orphanPair.solveRestriction Recorder.engine 0).2.isOk = false ∧
      LeavesRelaxation Recorder.engine (·.model) orphanPair
        (orphanPair.solveRestriction Recorder.engine 0).1 := by
  have hreached : Reached Recorder.engine (fun before after : Recorder Rat =>
      after.model.vars.length = before.model.vars.length) orphanPair := by
    have hok : fruitlessPair.2.toOption = some () := by decide +kernel
    rw [orphanPair]
    rcases hbuild : fruitlessPair with ⟨start, outcome⟩
    rw [hbuild] at hok
    obtain rfl := toOption_eq_some.mp hok
    rw [fruitlessPair] at hbuild
    exact (((Reached.build hbuild).refusing _).addColumn (Or.inl rfl) .null).refusing _
  have hcolumns : orphanPair.pool.columns ≠ [] := by
    rw [← List.length_pos_iff]
    decide +kernel
  have hflags : orphanPair.problem.engine.model.vars.map (·.isInteger) =
      [.flag false, .flag false, .flag false] := by cbv
  refine ⟨by decide +kernel, by decide +kernel, by decide +kernel,
    (leavesRelaxation_of_reached Recorder.shows hreached hcolumns ?_ 0).1⟩
  intro handle _ known hknown
  have hflag := List.mem_map_of_mem (f := (·.isInteger)) (List.mem_of_getElem? hknown)
  rw [hflags] at hflag
  simpa using hflag

end Cover

end PatternCovering
