import PatternCovering.Proofs.Datum
import PatternCovering.Proofs.Settings.Lines

/-!
# Loading saved settings restores them

The lines of a saved text are read one after the other: the general settings come under their names,
and the tolerances under theirs in the order in which they were saved. They are then set on top of the
standard ones, of which none is left if all of their names were saved. So the settings that are loaded
are those that were saved, with the tolerances in another order perhaps.
-/

namespace PatternCovering

namespace Table

variable {γ : Type}

/-- A key is the same as a text exactly if it is this text. -/
theorem same_text_iff {key : Datum} {name : String} :
    key.same (.text name) = true ↔ key = .text name := by
  cases key <;> simp [Datum.same]

/-- A value that is set under a name takes the place of the one under this name. -/
theorem set_perm {name : String} {value : γ} {table : Table γ}
    (hnodup : (table.map Prod.fst).Nodup) :
    (set (.text name) value table).Perm
      ((.text name, value) :: table.filter fun entry => !entry.1.same (.text name)) := by
  induction table with
  | nil => exact List.Perm.refl _
  | cons entry rest ih =>
    obtain ⟨known, old⟩ := entry
    rw [List.map_cons, List.nodup_cons] at hnodup
    rw [set]
    split
    · next hsame =>
      have hknown := same_text_iff.mp hsame
      have hrest : rest.filter (fun entry => !entry.1.same (.text name)) = rest := by
        rw [List.filter_eq_self]
        intro other hother
        rw [Bool.not_eq_true', Bool.eq_false_iff, ne_eq, same_text_iff, ← hknown]
        exact fun heq => hnodup.1 (List.mem_map.mpr ⟨other, hother, heq⟩)
      rw [List.filter_cons_of_neg (by simp [hsame]), hrest, hknown]
    · next hother =>
      rw [List.filter_cons_of_pos (by simp [hother])]
      exact ((ih hnodup.2).cons _).trans (List.Perm.swap _ _ _)

/-- Values that are set under distinct names are in the table, with the old ones under other names. -/
theorem foldl_set_perm {fields : List (String × γ)} {table : Table γ}
    (hfields : (fields.map Prod.fst).Nodup) (htable : (table.map Prod.fst).Nodup) :
    (fields.foldl (fun known (name, value) => known.set (.text name) value) table).Perm
      (fields.map (fun field => (.text field.1, field.2)) ++
        table.filter fun entry => fields.all fun field => !entry.1.same (.text field.1)) := by
  induction fields generalizing table with
  | nil => simp
  | cons field rest ih =>
    obtain ⟨name, value⟩ := field
    rw [List.map_cons, List.nodup_cons] at hfields
    have hset : (set (.text name) value table).Perm _ := set_perm htable
    have hdistinct : ((set (.text name) value table).map Prod.fst).Nodup := by
      rw [(hset.map Prod.fst).nodup_iff, List.map_cons, List.nodup_cons]
      refine ⟨?_, htable.sublist (List.filter_sublist.map Prod.fst)⟩
      rw [List.mem_map]
      rintro ⟨entry, hentry, heq⟩
      have hother := (List.mem_filter.mp hentry).2
      rw [Bool.not_eq_true', Bool.eq_false_iff, ne_eq, same_text_iff] at hother
      exact hother heq
    generalize hkept : (fun entry : Datum × γ => rest.all fun field =>
      !entry.1.same (.text field.1)) = kept at ih
    have hnew : kept (.text name, value) = true := by
      rw [← hkept, List.all_eq_true]
      intro field hfield
      rw [Bool.not_eq_true', Bool.eq_false_iff, ne_eq, same_text_iff, Datum.text.injEq]
      exact fun heq => hfields.1 (List.mem_map.mpr ⟨field, hfield, heq.symm⟩)
    have hfilter := hset.filter kept
    rw [List.filter_cons_of_pos hnew, List.filter_filter] at hfilter
    have hboth : (fun entry : Datum × γ => ((name, value) :: rest).all fun field =>
        !entry.1.same (.text field.1)) = fun entry => kept entry && !entry.1.same (.text name) := by
      funext entry
      rw [List.all_cons, Bool.and_comm, ← hkept]
    rw [List.map_cons, List.cons_append, hboth]
    exact ((ih hfields.2 hdistinct).trans (hfilter.append_left _)).trans List.perm_middle

end Table

namespace Settings

/-- The entry of a table for a tolerance under a name. -/
def toEntry (tolerance : String × Float) : Datum × Datum := (.text tolerance.1, .float tolerance.2)

/-- Settings that their text gives again: the level is in upper case and on one line, the integers are
not too long to be read, the tolerances stand under distinct names, the standard ones among them, and
each of them is a number under a name that a line gives again. -/
structure IsSavable (level : String) (budget verbosity : Int)
    (tolerances : List (String × Float)) : Prop where
  upper : Text.upper level = level
  oneLine : ∀ c ∈ level.toList, Text.isLineEnd c = false
  budget_nonneg : 0 ≤ budget
  budget_digits : digitCount budget.natAbs ≤ Decimal.mostIntegerDigits
  verbosity_digits : digitCount verbosity.natAbs ≤ Decimal.mostIntegerDigits
  distinct : (tolerances.map Prod.fst).Nodup
  standard : ∀ known ∈ Tolerances.standard, ∃ tolerance ∈ tolerances, known.1 = .text tolerance.1
  names : ∀ tolerance ∈ tolerances, IsWritable tolerance.1
  numbers : ∀ tolerance ∈ tolerances, Binary.ofFloat tolerance.2 ≠ .nan

section Lines

variable (path : String) (heading : Option String) (data : List (String × Datum))
  {line : List Char} (rest : List (List Char))

/-- A line that says nothing is passed over. -/
theorem parseLines_nothing (h : parseLine (Text.strip line) = .nothing) :
    parseLines path heading data (line :: rest) = parseLines path heading data rest := by
  rw [parseLines]
  simp only [h]

/-- A heading opens a section. -/
theorem parseLines_heading {name : String} (h : parseLine (Text.strip line) = .heading name) :
    parseLines path heading data (line :: rest) = parseLines path (some name) data rest := by
  rw [parseLines]
  simp only [h]

/-- A setting under another heading than that of the tolerances is set under its name. -/
theorem parseLines_setting {name : String} {value : Datum}
    (h : parseLine (Text.strip line) = .setting name value)
    (hheading : heading ≠ some tolerancesHeading) :
    parseLines path heading data (line :: rest) =
      parseLines path heading (withField name value data) rest := by
  rw [parseLines]
  simp only [h, if_neg hheading]

/-- A number under the heading of the tolerances is set under its name. -/
theorem parseLines_tolerance {name : String} {x : Float} {tolerances others : List (String × Datum)}
    (h : parseLine (Text.strip line) = .setting name (.float x)) :
    parseLines path (some tolerancesHeading) ((tolerancesHeading, .record tolerances) :: others)
        (line :: rest) =
      parseLines path (some tolerancesHeading)
        ((tolerancesHeading, .record (withField name (.float x) tolerances)) :: others) rest := by
  rw [parseLines]
  simp only [h, if_pos]
  have htolerance :
      withTolerance ((tolerancesHeading, .record tolerances) :: others) name (.float x) =
        .ok ((tolerancesHeading, .record (withField name (.float x) tolerances)) :: others) := by
    simp [withTolerance, Datum.real, Datum.float, Number.float?, Number.hasFloat, Number.toFloat,
      List.lookup, withField, bind, Except.bind, pure, Except.pure]
  rw [htolerance]
  rfl

end Lines

/-- A value under a new name comes to the end. -/
theorem withField_of_notMem {name : String} {value : Datum} {fields : List (String × Datum)}
    (h : name ∉ fields.map Prod.fst) : withField name value fields = fields ++ [(name, value)] := by
  induction fields with
  | nil => rfl
  | cons field rest ih =>
    obtain ⟨known, old⟩ := field
    rw [List.map_cons, List.mem_cons, not_or] at h
    rw [withField, if_neg (Ne.symm h.1), ih h.2, List.cons_append]

/-- The line of a tolerance. -/
def toleranceLine (tolerance : String × Float) : List Char :=
  settingLine tolerance.1.toList (Decimal.shortestText tolerance.2).toList

/-- The line of a tolerance gives it again. -/
theorem parseLine_toleranceLine {tolerance : String × Float} (hname : IsWritable tolerance.1)
    (hnumber : Binary.ofFloat tolerance.2 ≠ .nan) :
    parseLine (Text.strip (toleranceLine tolerance)) =
      .setting tolerance.1 (.float tolerance.2) :=
  parseLine_float hname hnumber

/-- The field of a record for a tolerance under a name. -/
def toField (tolerance : String × Float) : String × Datum := (tolerance.1, .float tolerance.2)

/-- The lines of tolerances under distinct names add them in order. -/
theorem parseLines_tolerances (path : String) {tolerances : List (String × Float)}
    (hnames : ∀ tolerance ∈ tolerances, IsWritable tolerance.1)
    (hnumbers : ∀ tolerance ∈ tolerances, Binary.ofFloat tolerance.2 ≠ .nan)
    {known others : List (String × Datum)}
    (hdistinct : (known.map Prod.fst ++ tolerances.map Prod.fst).Nodup) :
    parseLines path (some tolerancesHeading) ((tolerancesHeading, .record known) :: others)
        (tolerances.map toleranceLine) =
      .ok ((tolerancesHeading, .record (known ++ tolerances.map toField)) :: others) := by
  induction tolerances generalizing known with
  | nil => rw [List.map_nil, List.map_nil, List.append_nil, parseLines]
  | cons tolerance rest ih =>
    have hnew : tolerance.1 ∉ known.map Prod.fst := fun hmem =>
      (List.nodup_append.mp hdistinct).2.2 _ hmem _ (by simp) rfl
    rw [List.map_cons, parseLines_tolerance path _
      (parseLine_toleranceLine (hnames tolerance (by simp)) (hnumbers tolerance (by simp))),
      withField_of_notMem hnew, ih (fun other hother => hnames other (by simp [hother]))
        (fun other hother => hnumbers other (by simp [hother]))]
    · rw [List.append_assoc]
      rfl
    · simpa using hdistinct

/-- The lines of settings before those of the tolerances. -/
def generalLines (level : String) (budget verbosity : Int) : List (List Char) :=
  ["# colgen configuration".toList, [], "[general]".toList,
    settingLine "log_level".toList ('"' :: (level.toList ++ ['"'])),
    settingLine "max_iterations".toList (toString budget).toList,
    settingLine "solver_verbosity".toList (toString verbosity).toList, [], "[tolerances]".toList]

/-- The lines of settings with tolerances. -/
def savedLines (level : String) (budget verbosity : Int) (tolerances : List (String × Float)) :
    List (List Char) :=
  generalLines level budget verbosity ++ tolerances.map toleranceLine

variable {level : String} {budget verbosity : Int} {tolerances : List (String × Float)}

/-- The text of settings holds their lines, each of them ended by a line feed. -/
theorem exists_render (level : String) (budget verbosity : Int) (tolerances : List (String × Float)) :
    ∃ text, render ⟨.text level, .int budget, .int verbosity, .table (tolerances.map toEntry)⟩ =
        .ok text ∧
      text.toList = (savedLines level budget verbosity tolerances).flatMap (· ++ ['\n']) := by
  refine ⟨_, rfl, ?_⟩
  rw [Text.toList_intercalate_append (by simp)]
  congr 1
  rw [List.map_append, List.map_map, List.map_map]
  congr 1
  · simp only [List.map_cons, List.map_nil, String.toList_append]
    rfl
  · apply List.map_congr_left
    intro tolerance _
    change (tolerance.1 ++ " = " ++ Decimal.shortestText tolerance.2).toList = toleranceLine tolerance
    rw [String.toList_append, String.toList_append, List.append_assoc]
    rfl

/-- The lines of settings that can be saved hold no line ends. -/
theorem isLineEnd_savedLines (h : IsSavable level budget verbosity tolerances) :
    ∀ line ∈ savedLines level budget verbosity tolerances, ∀ c ∈ line, Text.isLineEnd c = false := by
  have hfigures : ∀ {text : String}, (∀ c ∈ text.toList, Decimal.IsFigure c) →
      ∀ c ∈ text.toList, Text.isLineEnd c = false := fun h c hc => (h c hc).isLineEnd
  have hplain : ∀ {line : List Char}, (line.all fun c => !Text.isLineEnd c) = true →
      ∀ c ∈ line, Text.isLineEnd c = false := fun h c hc => by
    simpa using List.all_eq_true.mp h c hc
  have hquoted : ∀ c ∈ '"' :: (level.toList ++ ['"']), Text.isLineEnd c = false := by
    simp only [List.mem_cons, List.mem_append, List.not_mem_nil, or_false]
    rintro c (rfl | hc | rfl)
    · decide
    · exact h.oneLine c hc
    · decide
  have hgeneral : ∀ line ∈ generalLines level budget verbosity,
      ∀ c ∈ line, Text.isLineEnd c = false := by
    simp only [generalLines, List.mem_cons, List.not_mem_nil, or_false]
    rintro line (rfl | rfl | rfl | rfl | rfl | rfl | rfl | rfl)
    · exact hplain (by decide)
    · exact hplain (by decide)
    · exact hplain (by decide)
    · exact isLineEnd_settingLine (hplain (by decide)) hquoted
    · exact isLineEnd_settingLine (hplain (by decide)) (hfigures (isFigure_toString budget))
    · exact isLineEnd_settingLine (hplain (by decide)) (hfigures (isFigure_toString verbosity))
    · exact hplain (by decide)
    · exact hplain (by decide)
  intro line hline
  rcases List.mem_append.mp hline with hline | hline
  · exact hgeneral line hline
  · obtain ⟨tolerance, htolerance, rfl⟩ := List.mem_map.mp hline
    exact isLineEnd_settingLine (h.names tolerance htolerance).noLineEnd
      (hfigures (isFigure_shortestText tolerance.2))

/-- The lines of settings that can be saved give them again as data. -/
theorem parseLines_savedLines (h : IsSavable level budget verbosity tolerances) (path : String) :
    parseLines path none [(tolerancesHeading, .record [])]
        (savedLines level budget verbosity tolerances) =
      .ok [(tolerancesHeading, .record (tolerances.map toField)), ("log_level", .text level),
        ("max_iterations", .int budget), ("solver_verbosity", .int verbosity)] := by
  rw [savedLines, generalLines]
  simp only [List.cons_append, List.nil_append]
  have hcomment : parseLine (Text.strip "# colgen configuration".toList) = .nothing := rfl
  have hgeneral : parseLine (Text.strip "[general]".toList) = .heading "general" := rfl
  have htolerances : parseLine (Text.strip "[tolerances]".toList) = .heading tolerancesHeading := rfl
  rw [parseLines_nothing _ _ _ _ hcomment, parseLines_nothing _ _ _ _ rfl,
    parseLines_heading _ _ _ _ hgeneral,
    parseLines_setting _ _ _ _ (parseLine_quoted (isWritable_of_letters (by decide)) level)
      (by decide),
    parseLines_setting _ _ _ _ (parseLine_int (isWritable_of_letters (by decide)) h.budget_digits)
      (by decide),
    parseLines_setting _ _ _ _ (parseLine_int (isWritable_of_letters (by decide)) h.verbosity_digits)
      (by decide),
    parseLines_nothing _ _ _ _ rfl, parseLines_heading _ _ _ _ htolerances]
  exact @parseLines_tolerances path tolerances h.names h.numbers []
    [("log_level", .text level), ("max_iterations", .int budget),
      ("solver_verbosity", .int verbosity)] h.distinct

/-- The lines of a saved text are read again. -/
theorem lines_of_saved (h : IsSavable level budget verbosity tolerances) {text : List Char}
    (htext : text = (savedLines level budget verbosity tolerances).flatMap (· ++ ['\n'])) :
    Text.lines (Text.unifyReturns text) = savedLines level budget verbosity tolerances := by
  have hlines := isLineEnd_savedLines h
  have hreturn : '\r' ∉ text := by
    rw [htext, List.mem_flatMap]
    rintro ⟨line, hline, hmem⟩
    rcases List.mem_append.mp hmem with hmem | hmem
    · exact absurd (hlines line hline _ hmem) (by decide)
    · exact absurd (List.mem_singleton.mp hmem) (by decide)
  rw [Text.unifyReturns_eq_self hreturn, htext, Text.lines_flatMap hlines]

/-- The data of settings that were saved is read as these settings, with the tolerances in another
order perhaps. -/
theorem read_saved (h : IsSavable level budget verbosity tolerances) (environment : Option String) :
    ∃ loaded, read environment (.record [(tolerancesHeading, .record (tolerances.map toField)),
        ("log_level", .text level), ("max_iterations", .int budget),
        ("solver_verbosity", .int verbosity)]) =
      .ok ⟨.text level, .int budget, .int verbosity, .table loaded⟩ ∧
      loaded.Perm (tolerances.map toEntry) := by
  have hfields : ((tolerances.map toField).map Prod.fst).Nodup := by
    rw [List.map_map]
    exact h.distinct
  have hstandard : (Tolerances.standard.map Prod.fst).Nodup := by simp [Tolerances.standard]
  have hperm := Table.foldl_set_perm hfields hstandard
  have hnone : (Tolerances.standard.filter fun entry => (tolerances.map toField).all fun field =>
      !entry.1.same (.text field.1)) = [] := by
    rw [List.filter_eq_nil_iff]
    intro entry hentry hall
    obtain ⟨tolerance, htolerance, hname⟩ := h.standard entry hentry
    have hother := List.all_eq_true.mp hall _ (List.mem_map_of_mem htolerance)
    rw [Bool.not_eq_true', Bool.eq_false_iff, ne_eq, Table.same_text_iff] at hother
    exact hother hname
  rw [hnone, List.append_nil, List.map_map] at hperm
  refine ⟨_, ?_, hperm⟩
  have hinteger : ∀ n : Int, (Datum.int n).integer = .ok n := by
    intro n
    simp [Datum.int, Datum.integer, Number.truncated, Number.finiteValue, Number.exactValue?,
      truncate, Except.map]
  have hbudget : ¬ budget < 0 := not_lt.mpr h.budget_nonneg
  simp [read, Datum.requireRecord, Datum.field?, List.lookup, tolerancesHeading, Table.update,
    hinteger, make, hbudget, Datum.plain, h.upper, bind, Except.bind, pure, Except.pure]

/-- Loading settings that were saved gives them again: the same level, budget and verbosity, and the
same tolerances under the same names, in another order perhaps. -/
theorem load_render (h : IsSavable level budget verbosity tolerances) (environment : Option String)
    (path : String) (others : List (String × Option String)) :
    ∃ text loaded,
      render ⟨.text level, .int budget, .int verbosity, .table (tolerances.map toEntry)⟩ = .ok text ∧
      load environment ((path, some text) :: others) =
        .ok ⟨.text level, .int budget, .int verbosity, .table loaded⟩ ∧
      loaded.Perm (tolerances.map toEntry) := by
  obtain ⟨text, hrender, htext⟩ := exists_render level budget verbosity tolerances
  obtain ⟨loaded, hread, hperm⟩ := read_saved h environment
  refine ⟨text, loaded, hrender, ?_, hperm⟩
  rw [load, parse, lines_of_saved h htext, parseLines_savedLines h]
  exact hread

/-- A level with quotation marks, a comment sign and an equals sign is loaded again, and so are
tolerances that are not in the standard order, one of them under the empty name. -/
theorem load_render_quoted :
    IsSavable "\"#[A]\" = B" 7 (-1)
        [("", 0.5), ("integrality", -0.0), ("feasibility", 1.0 / 0.0), ("reduced_cost", 1e-7)] ∧
      ∃ text loaded,
        render ⟨.text "\"#[A]\" = B", .int 7, .int (-1),
          .table ([("", 0.5), ("integrality", -0.0), ("feasibility", 1.0 / 0.0),
            ("reduced_cost", 1e-7)].map toEntry)⟩ = .ok text ∧
        load none [("colgen.toml", some text)] =
          .ok ⟨.text "\"#[A]\" = B", .int 7, .int (-1), .table loaded⟩ ∧
        loaded.Perm ([("", 0.5), ("integrality", -0.0), ("feasibility", 1.0 / 0.0),
          ("reduced_cost", 1e-7)].map toEntry) := by
  have h : IsSavable "\"#[A]\" = B" 7 (-1)
      [("", 0.5), ("integrality", -0.0), ("feasibility", 1.0 / 0.0), ("reduced_cost", 1e-7)] := {
    upper := by decide
    oneLine := by simp [Text.isLineEnd]
    budget_nonneg := by decide
    budget_digits := by decide
    verbosity_digits := by decide
    distinct := by decide
    standard := by simp [Tolerances.standard]
    names := by
      simp only [List.forall_mem_cons]
      exact ⟨isWritable_of_letters (by decide), isWritable_of_letters (by decide),
        isWritable_of_letters (by decide), isWritable_of_letters (by decide),
        List.forall_mem_nil _⟩
    numbers := by
      simp only [List.forall_mem_cons]
      exact ⟨by decide +kernel, by decide +kernel, by decide +kernel, by decide +kernel,
        List.forall_mem_nil _⟩ }
  exact ⟨h, load_render h none "colgen.toml" []⟩

end Settings

end PatternCovering
