import PatternCovering.Generation.Reader
import PatternCovering.Proofs.Datum
import PatternCovering.Proofs.Double.Values
import PatternCovering.Proofs.Failure
import PatternCovering.Settings.File

/-!
# Settings that a run can use

Settings are made with the standard tolerances, read from data or loaded from a file, and then
tolerances are set one after the other. What is set must not be negative. What data or a file gives
is taken as it is, so that each tolerance is a number that is not negative or one of those given,
and a run whose tolerance was given may refuse it later. The budget is not negative, which allows
zero, while a run takes at least one round.
-/

namespace PatternCovering

/-- Whether data is a number that is not below an integer. -/
def Datum.IsAtLeast (given : Datum) (n : Int) : Prop :=
  ∃ p, given.value? = some p ∧ ((n : Rat) : Extended) ≤ p

/-- A number is compared with an integer by its value. -/
theorem Datum.lt_int_of_value {given : Datum} {p : Extended} (h : given.value? = some p) (n : Int) :
    given.lt (.int n) = .ok (decide (p < ((n : Rat) : Extended))) :=
  Evaluable.lt?_eq (a := given) (b := .int n) h rfl

/-- A number passes a check against an integer exactly if it is not below it. -/
theorem Datum.isAtLeast_iff_lt {given : Datum} (hnumber : given.value?.isSome = true) {n : Int} :
    given.IsAtLeast n ↔ given.lt (.int n) = .ok false := by
  obtain ⟨p, hp⟩ := Option.isSome_iff_exists.mp hnumber
  rw [lt_int_of_value hp, Except.ok.injEq, decide_eq_false_iff_not, not_lt, IsAtLeast, hp]
  simp

namespace Table

/-- The values of a table are the old ones and the one that was set. -/
theorem mem_set {γ : Type} {key : Datum} {value : γ} {table : Table γ} {entry : Datum × γ}
    (h : entry ∈ set key value table) : entry ∈ table ∨ entry.2 = value := by
  induction table with
  | nil => exact Or.inr (congrArg Prod.snd (List.mem_singleton.mp h))
  | cons first rest ih =>
    obtain ⟨known, old⟩ := first
    rw [set] at h
    split at h
    · rcases List.mem_cons.mp h with rfl | h
      · exact Or.inr rfl
      · exact Or.inl (List.mem_cons_of_mem _ h)
    · rcases List.mem_cons.mp h with rfl | h
      · exact Or.inl List.mem_cons_self
      · exact (ih h).imp_left (List.mem_cons_of_mem _)

/-- What is found under a key is the value of an entry. -/
theorem mem_of_find? {γ : Type} {key : Datum} {value : γ} {table : Table γ}
    (h : find? key table = some value) : ∃ known, (known, value) ∈ table := by
  induction table with
  | nil => cases h
  | cons entry rest ih =>
    rw [find?] at h
    split at h
    · exact ⟨entry.1, by rw [← Option.some.inj h]; exact List.mem_cons_self⟩
    · obtain ⟨known, hmem⟩ := ih h
      exact ⟨known, List.mem_cons_of_mem _ hmem⟩

/-- The value of a pair. -/
def pairValue? (given : Datum) : Option Datum :=
  match given.elements with
  | .ok [_, value] => some value
  | _ => none

/-- The values that are added to a table: those of a record, or those of pairs. -/
def addedValues : Datum → List Datum
  | .record fields => fields.map (·.2)
  | given => (given.elements.toOption.getD []).filterMap pairValue?

/-- The values of a table to which pairs are added are the old ones and those of the pairs. -/
theorem mem_addPairsFrom {pairs : List Datum} {first : Nat} {table added : Table Datum}
    (h : addPairsFrom first table pairs = .ok added) {entry : Datum × Datum} (hmem : entry ∈ added) :
    entry ∈ table ∨ entry.2 ∈ pairs.filterMap pairValue? := by
  induction pairs generalizing first table with
  | nil => exact Or.inl (Except.ok.inj h ▸ hmem)
  | cons pair rest ih =>
    obtain ⟨parts, hparts, h⟩ := bind_eq_ok.mp h
    split at h
    · next key value =>
      obtain ⟨changed, hchanged, h⟩ := bind_eq_ok.mp h
      obtain ⟨-, -, hset⟩ := bind_eq_ok.mp hchanged
      have hvalue : pairValue? pair = some value := by rw [pairValue?, hparts]
      rw [List.filterMap_cons_some hvalue]
      rcases ih h with hold | hnew
      · rw [← Except.ok.inj hset] at hold
        rcases mem_set hold with hold | heq
        · exact Or.inl hold
        · exact Or.inr (heq ▸ List.mem_cons_self)
      · exact Or.inr (List.mem_cons_of_mem _ hnew)
    · cases h

/-- The values of an updated table are the old ones and those that were added. -/
theorem mem_update {table updated : Table Datum} {given : Datum}
    (h : table.update given = .ok updated) {entry : Datum × Datum} (hmem : entry ∈ updated) :
    entry ∈ table ∨ entry.2 ∈ addedValues given := by
  cases given with
  | record fields =>
    rw [← Except.ok.inj h] at hmem
    clear h
    induction fields generalizing table with
    | nil => exact Or.inl hmem
    | cons field rest ih =>
      rcases ih hmem with hold | hnew
      · rcases mem_set hold with hold | heq
        · exact Or.inl hold
        · exact Or.inr (heq ▸ List.mem_cons_self)
      · exact Or.inr (List.mem_cons_of_mem _ hnew)
  | null | number | text | list =>
    obtain ⟨pairs, hpairs, h⟩ := bind_eq_ok.mp h
    simpa [addedValues, hpairs, Except.toOption] using mem_addPairsFrom h hmem

end Table

namespace Settings

/-- The tolerances that data for settings gives. -/
def givenTolerances (given : Datum) : List Datum :=
  Table.addedValues ((given.field? "tolerances").getD (.record []))

/-- The data that the lines of a file give. -/
def fileData (path text : String) : Except Fault (List (String × Datum)) :=
  parseLines path none [(tolerancesHeading, .record [])]
    (Text.lines (Text.unifyReturns text.toList))

/-- The tolerances that the first file that is there gives, none without any. -/
def fileTolerances : List (String × Option String) → List Datum
  | [] => []
  | (path, some text) :: _ => (fileData path text).toOption.elim [] (givenTolerances <| .record ·)
  | (_, none) :: rest => fileTolerances rest

/-- Settings in use, with the tolerances that data or a file gave: they are made with the standard
tolerances and a budget that is a number, read, or loaded, and then tolerances that are numbers are
set. -/
inductive Obtained (environment : Option String) : Settings → List Datum → Prop
  | made {given : Datum} {settings : Settings} (hstandard : given.field? "tolerances" = none)
    (hnumber : settings.maxIterations.value?.isSome = true)
    (h : ofFields environment given = .ok settings) : Obtained environment settings []
  | read {given : Datum} {settings : Settings} (h : read environment given = .ok settings) :
    Obtained environment settings (givenTolerances given)
  | loaded {files : List (String × Option String)} {settings : Settings}
    (h : load environment files = .ok settings) :
    Obtained environment settings (fileTolerances files)
  | set {settings changed : Settings} {given : List Datum} {name value : Datum}
    (h : Obtained environment settings given) (hnumber : value.value?.isSome = true)
    (hset : settings.setTolerance name value = .ok changed) : Obtained environment changed given

/-- What holds of settings in use: each tolerance is a number that is not negative or was given, and
so is the budget a number that is not negative. -/
structure Accounts (given : List Datum) (settings : Settings) : Prop where
  tolerances : ∃ entries, settings.tolerances = .table entries ∧
    ∀ entry ∈ entries, entry.2.IsAtLeast 0 ∨ entry.2 ∈ given
  budget : settings.maxIterations.IsAtLeast 0

variable {environment : Option String} {settings : Settings} {given : List Datum}

/-- The standard tolerances are not negative. -/
theorem isAtLeast_standard : ∀ entry ∈ Tolerances.standard, entry.2.IsAtLeast 0 := by
  have hmillionth : (Datum.float 1e-6).IsAtLeast 0 :=
    (Datum.isAtLeast_iff_lt (by decide +kernel)).mpr (congrArg Except.ok (by decide +kernel))
  have hother : (Datum.float 1e-5).IsAtLeast 0 :=
    (Datum.isAtLeast_iff_lt (by decide +kernel)).mpr (congrArg Except.ok (by decide +kernel))
  simp only [Tolerances.standard, List.forall_mem_cons]
  exact ⟨hmillionth, hmillionth, hother, fun _ hentry => by cases hentry⟩

/-- Settings that are made have what they were given, with a budget that is not negative. -/
theorem of_make {logLevel maxIterations solverVerbosity : Datum} {tolerances : Tolerances}
    (h : make logLevel maxIterations solverVerbosity tolerances = .ok settings) :
    settings = ⟨.text (Text.upper logLevel.plain), maxIterations, solverVerbosity, tolerances⟩ ∧
      maxIterations.lt (.int 0) = .ok false := by
  obtain ⟨negative, hnegative, h⟩ := bind_eq_ok.mp h
  cases negative with
  | true => cases h
  | false => exact ⟨(Except.ok.inj h).symm, hnegative⟩

/-- Settings that are made with a number as budget account for their tolerances. -/
theorem accounts_of_make {logLevel maxIterations solverVerbosity : Datum} {entries : Table Datum}
    (h : make logLevel maxIterations solverVerbosity (.table entries) = .ok settings)
    (hnumber : maxIterations.value?.isSome = true)
    (hentries : ∀ entry ∈ entries, entry.2.IsAtLeast 0 ∨ entry.2 ∈ given) :
    Accounts given settings := by
  obtain ⟨rfl, hbudget⟩ := of_make h
  exact ⟨⟨entries, rfl, hentries⟩, (Datum.isAtLeast_iff_lt hnumber).mpr hbudget⟩

/-- Settings that are read from data account for their tolerances. -/
theorem accounts_of_read {given : Datum} (h : read environment given = .ok settings) :
    Accounts (givenTolerances given) settings := by
  obtain ⟨-, -, h⟩ := bind_eq_ok.mp h
  obtain ⟨tolerances, htolerances, h⟩ := bind_eq_ok.mp h
  obtain ⟨budget, -, h⟩ := bind_eq_ok.mp h
  obtain ⟨verbosity, -, h⟩ := bind_eq_ok.mp h
  refine accounts_of_make h rfl fun entry hentry => ?_
  exact (Table.mem_update htolerances hentry).imp_left (isAtLeast_standard entry)

/-- Settings that are loaded account for their tolerances. -/
theorem accounts_of_load {files : List (String × Option String)}
    (h : load environment files = .ok settings) : Accounts (fileTolerances files) settings := by
  induction files with
  | nil =>
    rw [← Except.ok.inj h]
    refine ⟨⟨_, rfl, fun entry hentry => Or.inl (isAtLeast_standard entry hentry)⟩, ?_⟩
    exact (Datum.isAtLeast_iff_lt rfl).mpr (Datum.lt_int 100 0)
  | cons file rest ih =>
    obtain ⟨path, text⟩ := file
    cases text with
    | none => exact ih h
    | some text =>
      obtain ⟨data, hdata, h⟩ := bind_eq_ok.mp h
      have hfile : fileData path text = .ok data := hdata
      have hgiven : fileTolerances ((path, some text) :: rest) = givenTolerances (.record data) := by
        rw [fileTolerances, hfile]
        rfl
      exact hgiven ▸ accounts_of_read h

/-- A tolerance that is set is not negative; the others stay. -/
theorem Accounts.set {changed : Settings} {name value : Datum} (h : Accounts given settings)
    (hnumber : value.value?.isSome = true) (hset : settings.setTolerance name value = .ok changed) :
    Accounts given changed := by
  obtain ⟨entries, hentries, hvalues⟩ := h.tolerances
  obtain ⟨negative, hnegative, hset⟩ := bind_eq_ok.mp hset
  cases negative with
  | true => cases hset
  | false =>
    obtain ⟨tolerances, htolerances, hset⟩ := bind_eq_ok.mp hset
    rw [hentries] at htolerances
    obtain ⟨table, htable, htolerances⟩ := bind_eq_ok.mp htolerances
    obtain ⟨-, -, htable⟩ := bind_eq_ok.mp htable
    obtain rfl := Except.ok.inj hset
    refine ⟨⟨table, (Except.ok.inj htolerances).symm, fun entry hentry => ?_⟩, h.budget⟩
    rw [← Except.ok.inj htable] at hentry
    rcases Table.mem_set hentry with hold | heq
    · exact hvalues entry hold
    · exact Or.inl (heq ▸ (Datum.isAtLeast_iff_lt hnumber).mpr hnegative)

/-- Settings in use account for their tolerances. -/
theorem Obtained.accounts (h : Obtained environment settings given) : Accounts given settings := by
  induction h with
  | made hstandard hnumber h =>
    obtain ⟨-, -, h⟩ := bind_eq_ok.mp h
    rw [hstandard] at h
    have hnumber := (of_make h).1 ▸ hnumber
    exact accounts_of_make h hnumber fun entry hentry => Or.inl (isAtLeast_standard entry hentry)
  | read h => exact accounts_of_read h
  | loaded h => exact accounts_of_load h
  | set _ hnumber hset ih => exact ih.set hnumber hset

/-- The tolerance of a name is not negative or was given. -/
theorem Accounts.exists_tolerance (h : Accounts given settings) (name : String) :
    ∃ usual, settings.tolerance (.text name) = .ok usual ∧
      (usual.IsAtLeast 0 ∨ usual ∈ given) := by
  obtain ⟨entries, hentries, hvalues⟩ := h.tolerances
  refine ⟨(Table.find? (.text name) entries).getD (.float 1e-6), by rw [tolerance, hentries]; rfl, ?_⟩
  rcases hfound : Table.find? (.text name) entries with - | value
  · exact Or.inl (isAtLeast_standard (.text "reduced_cost", .float 1e-6) List.mem_cons_self)
  · obtain ⟨known, hmem⟩ := Table.mem_of_find? hfound
    exact hvalues _ hmem

/-- A run takes its defaults from settings exactly if their budget is at least one round and their
tolerance is not negative. -/
theorem exists_read_iff {usual : Datum}
    (husual : settings.tolerance (.text "reduced_cost") = .ok usual)
    (hbudget : settings.maxIterations.value?.isSome = true) (hnumber : usual.value?.isSome = true) :
    (∃ accepted, GenerationSettings.read settings .null = .ok accepted) ↔
      settings.maxIterations.IsAtLeast 1 ∧ usual.IsAtLeast 0 := by
  have hread : GenerationSettings.read settings .null =
      GenerationSettings.make settings.maxIterations usual (.flag false) (.flag false) := by
    rw [GenerationSettings.read, husual]
    rfl
  rw [hread, Datum.isAtLeast_iff_lt hbudget, Datum.isAtLeast_iff_lt hnumber]
  constructor
  · rintro ⟨accepted, h⟩
    obtain ⟨budget, hchecked, h⟩ := bind_eq_ok.mp h
    obtain ⟨_, hnonneg, -⟩ := bind_eq_ok.mp h
    obtain ⟨small, hsmall, hchecked⟩ := bind_eq_ok.mp hchecked
    obtain ⟨negative, hnegative, hnonneg⟩ := bind_eq_ok.mp hnonneg
    cases small with
    | true => cases hchecked
    | false =>
      cases negative with
      | true => cases hnonneg
      | false => exact ⟨hsmall, hnegative⟩
  · rintro ⟨hlarge, hnonneg⟩
    obtain ⟨n, hn⟩ : ∃ n, settings.maxIterations = .number n := by
      cases hgiven : settings.maxIterations with
      | number n => exact ⟨n, rfl⟩
      | null | text | list | record => simp [hgiven, Datum.value?] at hbudget
    have hchecked : GenerationSettings.checkBudget settings.maxIterations = .ok n := by
      rw [GenerationSettings.checkBudget, hlarge, hn]
      rfl
    have htolerance : GenerationSettings.checkTolerance usual = .ok () := by
      have hlt : Quantity.lt? usual (Quantity.ofInt 0) = .ok false := hnonneg
      rw [GenerationSettings.checkTolerance, hlt]
      rfl
    rw [GenerationSettings.make, hchecked]
    exact ⟨{ budget := n, tolerance := usual }, by
      change (GenerationSettings.checkTolerance usual >>= fun _ => _) = _
      rw [htolerance]
      rfl⟩

/-- Settings in use, where the tolerances that data or a file gave are numbers: each tolerance is
not negative or was given, and a run takes its defaults from them exactly if the budget is not zero
and the tolerance that it uses is not negative. So if no given tolerance is negative, none is in the
end, and a run takes its defaults from the settings exactly if they allow one round. -/
theorem usable_of_obtained (h : Obtained environment settings given)
    (hgiven : ∀ value ∈ given, value.value?.isSome = true) :
    ∃ entries usual, settings.tolerances = .table entries ∧
      settings.tolerance (.text "reduced_cost") = .ok usual ∧
      (∀ entry ∈ entries, entry.2.IsAtLeast 0 ∨ entry.2 ∈ given) ∧
      settings.maxIterations.IsAtLeast 0 ∧
      ((∃ accepted, GenerationSettings.read settings .null = .ok accepted) ↔
        settings.maxIterations.IsAtLeast 1 ∧ usual.IsAtLeast 0) ∧
      ((∀ value ∈ given, value.IsAtLeast 0) → (∀ entry ∈ entries, entry.2.IsAtLeast 0) ∧
        ((∃ accepted, GenerationSettings.read settings .null = .ok accepted) ↔
          settings.maxIterations.IsAtLeast 1)) := by
  have haccounts := h.accounts
  obtain ⟨entries, hentries, hvalues⟩ := haccounts.tolerances
  obtain ⟨usual, husual, hcases⟩ := haccounts.exists_tolerance "reduced_cost"
  have hbudget : settings.maxIterations.value?.isSome = true := by
    obtain ⟨p, hp, -⟩ := haccounts.budget
    exact Option.isSome_iff_exists.mpr ⟨p, hp⟩
  have hnumber : usual.value?.isSome = true := by
    rcases hcases with ⟨p, hp, -⟩ | hmem
    · exact Option.isSome_iff_exists.mpr ⟨p, hp⟩
    · exact hgiven usual hmem
  have haccepted := exists_read_iff husual hbudget hnumber
  refine ⟨entries, usual, hentries, husual, hvalues, haccounts.budget, haccepted,
    fun hnonneg => ⟨fun entry hentry => ?_, ?_⟩⟩
  · exact (hvalues entry hentry).elim id (hnonneg entry.2)
  · rw [haccepted, and_iff_left]
    exact hcases.elim id (hnonneg usual)

/-- Settings that are read with a smaller tolerance and a budget, with another tolerance set to zero
afterwards, can be used. -/
theorem usable_of_obtained_tightened :
    ∃ (settings changed : Settings) (given : List Datum) (entries : Table Datum),
      read none (.record [("max_iterations", .int 7),
        ("tolerances", .record [("reduced_cost", .float 1e-8)])]) = .ok settings ∧
      settings.setTolerance (.text "feasibility") (.int 0) = .ok changed ∧
      Obtained none changed given ∧ (∀ value ∈ given, value.IsAtLeast 0) ∧
      changed.tolerances = .table entries ∧ (∀ entry ∈ entries, entry.2.IsAtLeast 0) ∧
      ∃ accepted, GenerationSettings.read changed .null = .ok accepted := by
  have hgiven : ∀ value ∈ [Datum.float 1e-8], value.value?.isSome = true ∧ value.IsAtLeast 0 := by
    intro value hvalue
    obtain rfl := List.mem_singleton.mp hvalue
    have hnumber : (Datum.float 1e-8).value?.isSome = true := by decide +kernel
    exact ⟨hnumber, (Datum.isAtLeast_iff_lt hnumber).mpr (congrArg Except.ok (by decide +kernel))⟩
  have hread : Obtained none _ [Datum.float 1e-8] :=
    @Obtained.read none (.record [("max_iterations", .int 7),
      ("tolerances", .record [("reduced_cost", .float 1e-8)])]) _ rfl
  have hobtained := @Obtained.set none _ _ _ (.text "feasibility") (.int 0) hread rfl rfl
  obtain ⟨entries, usual, hentries, -, -, -, -, hnonneg⟩ :=
    usable_of_obtained hobtained fun value hvalue => (hgiven value hvalue).1
  obtain ⟨hvalues, haccepted⟩ := hnonneg fun value hvalue => (hgiven value hvalue).2
  refine ⟨_, _, _, entries, rfl, rfl, hobtained, fun value hvalue => (hgiven value hvalue).2,
    hentries, hvalues, haccepted.mpr ?_⟩
  exact (Datum.isAtLeast_iff_lt rfl).mpr (Datum.lt_int 7 1)

/-- A run refuses settings in use whose tolerance is negative. -/
theorem Accounts.refused (h : Accounts given settings) {usual : Datum}
    (husual : settings.tolerance (.text "reduced_cost") = .ok usual)
    (hnumber : usual.value?.isSome = true) (hnegative : usual.lt (.int 0) = .ok true) :
    ¬ usual.IsAtLeast 0 ∧ ¬ ∃ accepted, GenerationSettings.read settings .null = .ok accepted := by
  obtain ⟨p, hp, -⟩ := h.budget
  have hbudget : settings.maxIterations.value?.isSome = true :=
    Option.isSome_iff_exists.mpr ⟨p, hp⟩
  have hbelow : ¬ usual.IsAtLeast 0 := by
    rw [Datum.isAtLeast_iff_lt hnumber, hnegative]
    simp
  exact ⟨hbelow, fun haccepted =>
    hbelow ((exists_read_iff husual hbudget hnumber).mp haccepted).2⟩

/-- A negative tolerance that cannot be set can be read from data and loaded from a file, and a
budget of zero rounds can be made; a run takes its defaults from none of these settings. -/
theorem refused_although_obtained :
    (standard none).setTolerance (.text "reduced_cost") (.float (-1.0)) =
      .error (.namedToleranceNegative (.text "reduced_cost") (.float (-1.0))) ∧
    (∃ settings usual,
      read none (.record [("tolerances", .record [("reduced_cost", .float (-1.0))])]) =
        .ok settings ∧
      settings.tolerance (.text "reduced_cost") = .ok usual ∧ ¬ usual.IsAtLeast 0 ∧
      ¬ ∃ accepted, GenerationSettings.read settings .null = .ok accepted) ∧
    (∃ settings usual,
      load none [("colgen.toml", some "[tolerances]\nreduced_cost = -1.0\n")] = .ok settings ∧
      settings.tolerance (.text "reduced_cost") = .ok usual ∧ ¬ usual.IsAtLeast 0 ∧
      ¬ ∃ accepted, GenerationSettings.read settings .null = .ok accepted) ∧
    ∃ settings, ofFields none (.record [("max_iterations", .int 0)]) = .ok settings ∧
      GenerationSettings.read settings .null = .error (.budgetTooSmall (.int 0)) := by
  refine ⟨rfl, ?_, ?_, ⟨.text "WARNING", .int 0, .int 0, .table Tolerances.standard⟩, rfl, rfl⟩
  · have hread : read none (.record [("tolerances", .record [("reduced_cost", .float (-1.0))])]) =
      .ok _ := rfl
    exact ⟨_, .float (-1.0), hread, rfl,
      (accounts_of_read hread).refused rfl (by decide +kernel)
        (congrArg Except.ok (by decide +kernel))⟩
  · have hload :
        (load none [("colgen.toml", some "[tolerances]\nreduced_cost = -1.0\n")]).toOption.bind
          (fun settings => (settings.tolerance (.text "reduced_cost")).toOption.map fun usual =>
            (usual.value?.isSome, (usual.lt (.int 0)).toOption)) = some (true, some true) := by
      decide +kernel
    obtain ⟨settings, hsettings, husual⟩ := Option.bind_eq_some_iff.mp hload
    obtain ⟨usual, husual, hvalue⟩ := Option.map_eq_some_iff.mp husual
    simp only [Prod.mk.injEq, toOption_eq_some] at hsettings husual hvalue
    exact ⟨settings, usual, hsettings, husual,
      (accounts_of_load hsettings).refused husual hvalue.1 hvalue.2⟩

end Settings

end PatternCovering
