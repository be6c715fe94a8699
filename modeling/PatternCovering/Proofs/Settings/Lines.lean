import PatternCovering.Proofs.Decimal.Numerals
import PatternCovering.Proofs.Failure
import PatternCovering.Settings.File

/-!
# Lines of a settings file read back

A line with a name and a value around an equals sign gives the name and the value again, whatever else
is in the name, if it could not be taken for a comment or for another name. A value between quotation
marks is read as the text between them, the digits of an integer as the integer, and the shortest text
of a double as the double.
-/

namespace PatternCovering.Settings

/-- What a name must be so that a line gives it again. -/
structure IsWritable (name : String) : Prop where
  bare : Text.IsBare Text.isBlank name.toList
  noEquals : '=' ∉ name.toList
  noLineEnd : ∀ c ∈ name.toList, Text.isLineEnd c = false
  noComment : name.toList.head? ≠ some '#'

/-- A name of small letters and underscores is given again by a line. -/
theorem isWritable_of_letters {name : String}
    (h : (name.toList.all fun c => 0x5f ≤ c.toNat && c.toNat ≤ 0x7a) = true) : IsWritable name := by
  have hletters : ∀ c ∈ name.toList, 0x5f ≤ c.toNat ∧ c.toNat ≤ 0x7a := by
    simpa [List.all_eq_true] using h
  have hblank : ∀ c ∈ name.toList, Text.isBlank c = false := by
    intro c hc
    have := hletters c hc
    simp [Text.isBlank, Text.isNumberBlank]
    omega
  refine ⟨⟨fun c hc => hblank c (List.mem_of_mem_head? hc),
    fun c hc => hblank c (List.mem_of_mem_getLast? hc)⟩, fun hc => ?_, fun c hc => ?_, fun hc => ?_⟩
  · exact absurd (hletters '=' hc) (by decide)
  · have := hletters c hc
    simp [Text.isLineEnd]
    omega
  · exact absurd (hletters '#' (List.mem_of_mem_head? hc)) (by decide)

/-- The line with a name and a value. -/
def settingLine (name value : List Char) : List Char := name ++ ' ' :: '=' :: ' ' :: value

/-- A line has no line end if neither its name nor its value has one. -/
theorem isLineEnd_settingLine {name value : List Char}
    (hname : ∀ c ∈ name, Text.isLineEnd c = false) (hvalue : ∀ c ∈ value, Text.isLineEnd c = false) :
    ∀ c ∈ settingLine name value, Text.isLineEnd c = false := by
  intro c hc
  rw [settingLine, List.mem_append] at hc
  rcases hc with hc | hc
  · exact hname c hc
  · simp only [List.mem_cons] at hc
    rcases hc with rfl | rfl | rfl | hc
    · decide
    · decide
    · decide
    · exact hvalue c hc

/-- Characters before the first equals sign are none. -/
theorem ne_equals {before : List Char} (h : '=' ∉ before) :
    ∀ c ∈ before, decide (c ≠ '=') = true := by
  intro c hc
  rw [decide_eq_true_eq]
  rintro rfl
  exact h hc

/-- A line with a name and a value gives them again. -/
theorem parseLine_setting {name : String} (hname : IsWritable name) {value : List Char}
    (hbare : Text.IsBare Text.isBlank value) (hne : value ≠ []) (hlast : value.getLast? ≠ some ']') :
    parseLine (Text.strip (settingLine name.toList value)) = .setting name (parseValue value) := by
  have hend : ∀ before : List Char, (before ++ '=' :: ' ' :: value).getLast? = value.getLast? := by
    intro before
    rw [List.append_cons, List.append_cons, List.getLast?_append_of_ne_nil _ hne]
  -- the blank before the equals sign stays unless there is no name before it
  obtain ⟨before, hline, hbefore, hequals, hcomment⟩ : ∃ before,
      Text.strip (settingLine name.toList value) = before ++ '=' :: ' ' :: value ∧
      Text.strip before = name.toList ∧ '=' ∉ before ∧ before.head? ≠ some '#' := by
    by_cases hempty : name.toList = []
    · refine ⟨[], ?_, hempty.symm, by simp, by simp⟩
      have hdrop : (' ' :: '=' :: ' ' :: value).dropWhile Text.isBlank = '=' :: ' ' :: value := by
        rw [List.dropWhile_cons_of_pos (by decide), List.dropWhile_cons_of_neg (by decide)]
      rw [settingLine, hempty, List.nil_append, Text.strip, Text.stripBy_eq_dropWhile, hdrop]
      · rfl
      · rw [hdrop]
        exact (hend []).symm ▸ hbare.last
    · refine ⟨name.toList ++ [' '], ?_, hname.bare.stripBy_append hempty (by decide), ?_, ?_⟩
      · have hfull : Text.IsBare Text.isBlank (settingLine name.toList value) := by
          constructor
          · rw [settingLine, List.head?_append_of_ne_nil _ hempty]
            exact hname.bare.first
          · rw [settingLine, List.append_cons, hend]
            exact hbare.last
        rw [Text.strip, hfull.stripBy_eq, settingLine, List.append_cons]
      · simpa using hname.noEquals
      · rw [List.head?_append_of_ne_nil _ hempty]
        exact hname.noComment
  rw [hline, parseLine, if_neg, if_neg]
  · rw [List.takeWhile_append_of_pos (ne_equals hequals), List.takeWhile_cons_of_neg (by simp),
      List.append_nil, List.dropWhile_append_of_pos (ne_equals hequals),
      List.dropWhile_cons_of_neg (by simp)]
    simp only [hbefore, String.ofList_toList]
    exact congrArg (fun rest => Line.setting name (parseValue rest)) (hbare.stripBy_cons (by decide))
  · rw [hend]
    exact fun h => hlast h.2
  · rintro (hempty | hhead)
    · simp at hempty
    · cases before with
      | nil => cases hhead
      | cons c before => exact hcomment hhead

/-- A text between quotation marks is read as the text. -/
theorem parseValue_quoted (text : String) :
    parseValue ('"' :: (text.toList ++ ['"'])) = .text text := by
  rw [← List.cons_append, parseValue, if_pos ⟨rfl, List.getLast?_concat⟩, List.cons_append,
    List.tail_cons, List.dropLast_concat, String.ofList_toList]

/-- A text of figures is an integer, a real number or a text, whichever is first to read. -/
theorem parseValue_of_isFigure {text : String} (h : ∀ c ∈ text.toList, Decimal.IsFigure c) :
    parseValue text.toList =
      match Decimal.readInteger text with
      | .value n => .int n
      | _ =>
        match Decimal.readReal? text with
        | some x => .float x
        | none => .text text := by
  have hquotes : ¬(text.toList.head? = some '"' ∧ text.toList.getLast? = some '"') := by
    rintro ⟨hhead, -⟩
    exact absurd (h _ (List.mem_of_mem_head? hhead)) (by decide)
  cases hread : Decimal.readInteger text <;> cases hreal : Decimal.readReal? text <;>
    simp [parseValue, hquotes, hread, hreal]

/-- The text of an integer consists of figures. -/
theorem isFigure_toString (n : Int) : ∀ c ∈ (toString n).toList, Decimal.IsFigure c := by
  rw [Decimal.toString_int, String.toList_ofList]
  exact Decimal.isFigure_signed
    (fun c hc => Decimal.isFigure_digit (Decimal.areDigits_digitsOf n.natAbs c hc)) _

/-- The shortest text of a double consists of figures. -/
theorem isFigure_shortestText (x : Float) :
    ∀ c ∈ (Decimal.shortestText x).toList, Decimal.IsFigure c := by
  rcases hx : Binary.ofFloat x with - | negative | ⟨negative, d⟩
  · rw [Decimal.shortestText, Decimal.textWith, hx]
    exact (by simp [Decimal.IsFigure] : ∀ c ∈ ['n', 'a', 'n'], Decimal.IsFigure c)
  · rw [Decimal.shortestText, Decimal.textWith, hx]
    cases negative with
    | false => exact (by simp [Decimal.IsFigure] : ∀ c ∈ ['i', 'n', 'f'], Decimal.IsFigure c)
    | true => exact (by simp [Decimal.IsFigure] : ∀ c ∈ ['-', 'i', 'n', 'f'], Decimal.IsFigure c)
  · obtain ⟨text, written, heq, hnumeral, -⟩ := Decimal.exists_numeral_shortestText hx
    rw [heq, String.toList_ofList]
    exact Decimal.isFigure_signed hnumeral.isFigure negative

/-- A line whose value is written in figures gives it as an integer, a real number or a text. -/
theorem parseLine_figures {name value : String} (hname : IsWritable name)
    (hvalue : ∀ c ∈ value.toList, Decimal.IsFigure c) (hne : value ≠ "") :
    parseLine (Text.strip (settingLine name.toList value.toList)) =
      .setting name (parseValue value.toList) := by
  refine parseLine_setting hname
    (Decimal.isBare_of_isFigure (fun _ => Decimal.IsFigure.isBlank) hvalue) (by simpa using hne) ?_
  intro hlast
  exact absurd (hvalue _ (List.mem_of_mem_getLast? hlast)) (by decide)

/-- A line with an integer gives it again, unless it has too many digits. -/
theorem parseLine_int {name : String} (hname : IsWritable name) {n : Int}
    (h : digitCount n.natAbs ≤ Decimal.mostIntegerDigits) :
    parseLine (Text.strip (settingLine name.toList (toString n).toList)) =
      .setting name (.int n) := by
  have hread := Decimal.readInteger_toString.mpr h
  have hne : toString n ≠ "" := fun hempty => by
    rw [hempty] at hread
    cases hread
  rw [parseLine_figures hname (isFigure_toString n) hne, parseValue_of_isFigure (isFigure_toString n),
    hread]

/-- A line with a double gives it again. -/
theorem parseLine_float {name : String} (hname : IsWritable name) {x : Float}
    (h : Binary.ofFloat x ≠ .nan) :
    parseLine (Text.strip (settingLine name.toList (Decimal.shortestText x).toList)) =
      .setting name (.float x) := by
  have hread := Decimal.readReal?_shortestText h
  have hne : Decimal.shortestText x ≠ "" := fun hempty => by
    rw [hempty] at hread
    cases hread
  rw [parseLine_figures hname (isFigure_shortestText x) hne,
    parseValue_of_isFigure (isFigure_shortestText x), hread]
  split
  · next n hn => exact absurd hn (Decimal.readInteger_shortestText h n)
  · rfl

/-- A line with a text between quotation marks gives the text again. -/
theorem parseLine_quoted {name : String} (hname : IsWritable name) (text : String) :
    parseLine (Text.strip (settingLine name.toList ('"' :: (text.toList ++ ['"'])))) =
      .setting name (.text text) := by
  have hlast : ('"' :: (text.toList ++ ['"'])).getLast? = some '"' := by
    rw [← List.cons_append, List.getLast?_concat]
  rw [parseLine_setting hname, parseValue_quoted]
  · constructor
    · rintro _ ⟨⟩
      decide
    · rw [hlast]
      rintro _ ⟨⟩
      decide
  · simp
  · rw [hlast]
    decide

end PatternCovering.Settings
