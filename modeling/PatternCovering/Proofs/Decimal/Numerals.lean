import PatternCovering.Proofs.Decimal.Digits
import PatternCovering.Proofs.Decimal.Shortest

/-!
# Doubles read back from their shortest texts

A decimal is written in one of three shapes: digits with a point, digits with an exponent, or both.
Each of them is read as the double nearest to the decimal that it writes, with more zeros perhaps, but
with the same value. The shortest decimal of a double rounds to it, so that every double is read back
from its shortest text.
-/

namespace PatternCovering.Decimal

open Double

/-- A decimal that rounds to a magnitude is in the range in which powers of ten are computed. -/
theorem size_bounds {d : Dyadic} (hd : IsCanonical d) (hfinite : d.exponent ≤ 971)
    {decimal : Decimal} (hpos : 0 < decimal.digits) (h : d.Rounds decimal.value) :
    -400 ≤ decimal.exponent + digitCount decimal.digits ∧
      decimal.exponent + digitCount decimal.digits ≤ 400 := by
  obtain ⟨hcountLow, hcountHigh⟩ := digitCount_bounds hpos
  have hplace : (0 : Rat) < 10 ^ decimal.exponent := by positivity
  obtain ⟨hlow, hhigh, -⟩ := h
  rw [value_eq] at hlow hhigh
  constructor
  · by_contra hnot
    have hleast : (2 : Rat) ^ (-1075 : Int) ≤ d.low := by
      have hone : (1 : Rat) ≤ d.significand := by exact_mod_cast hd.pos
      have hsub := significand_sub_le d
      have hpower : (2 : Rat) ^ (-1074 : Int) ≤ 2 ^ d.exponent :=
        zpow_le_zpow_right₀ one_le_two hd.low
      calc (2 : Rat) ^ (-1075 : Int) = 1 / 2 * 2 ^ (-1074 : Int) := by
            rw [show (-1075 : Int) = -1 + -1074 by norm_num, zpow_add₀ two_ne_zero]
            norm_num
        _ ≤ d.low := mul_le_mul (by linarith) hpower (by positivity) (by linarith)
    have hgreatest : decimal.digits * (10 : Rat) ^ decimal.exponent < 10 ^ (-401 : Int) :=
      calc decimal.digits * (10 : Rat) ^ decimal.exponent
          < 10 ^ (digitCount decimal.digits : Int) * 10 ^ decimal.exponent := by gcongr
        _ = 10 ^ (decimal.exponent + digitCount decimal.digits) := by
          rw [← zpow_add₀ (by norm_num), add_comm]
        _ ≤ 10 ^ (-401 : Int) := zpow_le_zpow_right₀ (by norm_num) (by omega)
    have hpowers : (10 : Rat) ^ (-401 : Int) < 2 ^ (-1075 : Int) := by
      have hnat : 2 ^ 1075 < 10 ^ 401 := by decide +kernel
      rw [zpow_neg, zpow_neg, inv_lt_inv₀ (by positivity) (by positivity)]
      exact_mod_cast hnat
    linarith
  · by_contra hnot
    have hgreatest : d.high < (2 : Rat) ^ (1024 : Int) := by
      have hshort : (d.significand : Rat) + 1 ≤ 9007199254740992 := by exact_mod_cast hd.short
      have hpower : (2 : Rat) ^ d.exponent ≤ 2 ^ (971 : Int) := zpow_le_zpow_right₀ one_le_two hfinite
      calc d.high < 9007199254740992 * 2 ^ d.exponent := by
            rw [Dyadic.high]
            gcongr
            linarith
        _ ≤ 9007199254740992 * 2 ^ (971 : Int) := by gcongr
        _ = 2 ^ (1024 : Int) := by
          rw [show (1024 : Int) = 53 + 971 by norm_num, zpow_add₀ two_ne_zero]
          norm_num
    have hleast : (10 : Rat) ^ (400 : Int) ≤ decimal.digits * 10 ^ decimal.exponent :=
      calc (10 : Rat) ^ (400 : Int)
          ≤ 10 ^ ((digitCount decimal.digits : Int) - 1 + decimal.exponent) :=
            zpow_le_zpow_right₀ (by norm_num) (by omega)
        _ = 10 ^ ((digitCount decimal.digits : Int) - 1) * 10 ^ decimal.exponent :=
          zpow_add₀ (by norm_num) _ _
        _ ≤ decimal.digits * 10 ^ decimal.exponent := by gcongr
    have hpowers : (2 : Rat) ^ (1024 : Int) < 10 ^ (400 : Int) := by
      have hnat : 2 ^ 1024 < 10 ^ 400 := by decide +kernel
      exact_mod_cast hnat
    exact absurd (hleast.trans (hhigh.trans hgreatest.le)) (not_le.mpr hpowers)

/-- A decimal whose value rounds to the magnitude of a double is read as this double. -/
theorem nearestOf_eq {x : Float} {negative : Bool} {d : Dyadic} {decimal : Decimal}
    (hx : Binary.ofFloat x = .finite negative d)
    (h : if d.significand = 0 then decimal.digits = 0 else d.Rounds decimal.value) :
    (if negative then -(nearestOf decimal.digits decimal.exponent)
      else nearestOf decimal.digits decimal.exponent) = x := by
  have hnearest : ∃ num den, 0 < den ∧
      nearestOf decimal.digits decimal.exponent = nearestFloat num den ∧
      (if d.significand = 0 then num = 0 else d.Rounds (num / den)) := by
    by_cases hsignificand : d.significand = 0
    · rw [if_pos hsignificand] at h
      refine ⟨0, 1, Nat.one_pos, ?_, by rw [if_pos hsignificand]⟩
      simp only [nearestOf]
      rw [if_pos (Or.inl h)]
      exact eq_of_toBits (by decide +kernel)
    · rw [if_neg hsignificand] at h
      obtain ⟨hd, hfinite⟩ := (finite_parts hx).1.resolve_left (by rintro rfl; exact hsignificand rfl)
      obtain ⟨hden, hvalue⟩ := @scaleByTen_spec decimal.digits 1 Nat.one_pos decimal.exponent
      rw [Nat.cast_one, div_one, ← value_eq] at hvalue
      have hpos : 0 < decimal.digits := by
        have hrounds := (low_pos hd).trans_le h.1
        rw [value_eq] at hrounds
        exact_mod_cast pos_of_mul_pos_left hrounds (by positivity)
      obtain ⟨hleast, hgreatest⟩ := size_bounds hd hfinite hpos h
      refine ⟨_, _, hden, ?_, by rwa [if_neg hsignificand, hvalue]⟩
      simp only [nearestOf]
      rw [if_neg (by omega), if_neg (by omega)]
  obtain ⟨num, den, hden, heq, hrounds⟩ := hnearest
  rw [heq]
  exact eq_nearestFloat hx hden hrounds

/-- An exponent is written by a mark, a sign and the digits of its magnitude. -/
theorem exists_exponentText (power : Int) :
    ∃ digits, exponentText power = 'e' :: (if power < 0 then '-' else '+') :: digits ∧
      AreDigits digits ∧ digits ≠ [] ∧ Nat.ofDigitChars 10 digits 0 = power.natAbs := by
  refine ⟨List.replicate (2 - (digitsOf power.natAbs).length) '0' ++ digitsOf power.natAbs, rfl,
    (areDigits_replicate _).append (areDigits_digitsOf _), ?_, ?_⟩
  · exact List.append_ne_nil_of_right_ne_nil _ Nat.toDigits_ne_nil
  · rw [Nat.ofDigitChars_append, Nat.ofDigitChars_replicate_zero, Nat.mul_zero,
      ofDigitChars_digitsOf]

/-- The text of an exponent is read as the exponent. -/
theorem readExponent?_exponentText (power : Int) :
    readExponent? (exponentText power) = some power := by
  obtain ⟨digits, heq, hdigits, hne, hvalue⟩ := exists_exponentText power
  have hread := spanDigits_append hdigits endsRun_nil
  have hsign : spanSign ((if power < 0 then '-' else '+') :: digits) =
      (decide (power < 0), digits) := by
    split
    · next hneg => rw [decide_eq_true hneg]; rfl
    · next hneg => rw [decide_eq_false hneg]; rfl
  have hne' : digitValues digits ≠ [] := by simpa [digitValues] using hne
  rw [← ofDigits_digitValues] at hvalue
  obtain ⟨first, others, hcons⟩ := List.exists_cons_of_ne_nil hne'
  rw [List.append_nil, hcons] at hread
  rw [hcons] at hvalue
  simp only [heq, readExponent?, hsign, hread, hvalue, decide_true, Bool.true_or, if_true,
    decide_eq_true_eq]
  congr 1
  split <;> omega

/-- The text of an exponent consists of figures. -/
theorem isFigure_exponentText (power : Int) : ∀ c ∈ exponentText power, IsFigure c := by
  obtain ⟨digits, heq, hdigits, -⟩ := exists_exponentText power
  rw [heq]
  simp only [List.mem_cons]
  rintro c (rfl | rfl | hc)
  · exact Or.inr (by decide)
  · split <;> exact Or.inl (by decide)
  · exact isFigure_digit (hdigits c hc)

/-- An exponent mark ends a run of digits. -/
theorem endsRun_exponentText (power : Int) : EndsRun (exponentText power) := by
  obtain ⟨digits, heq, -⟩ := exists_exponentText power
  rw [heq]
  rintro _ ⟨⟩
  decide

/-- A point ends a run of digits. -/
theorem endsRun_point (rest : List Char) : EndsRun ('.' :: rest) := by
  rintro _ ⟨⟩
  decide

/-- A text that starts with a digit is none of the words for infinity and not-a-number. -/
theorem wordValue?_eq_none {c : Char} (h : c.isDigit = true) (rest : List Char) :
    wordValue? (String.ofList ((c :: rest).map Char.toLower)) = none := by
  have hlower : c.toLower = c := by
    rw [Char.isDigit, Bool.and_eq_true, decide_eq_true_eq, decide_eq_true_eq] at h
    rw [Char.toLower, dif_neg]
    rintro ⟨hupper, -⟩
    exact absurd (UInt32.le_trans hupper h.2) (by decide)
  have hne : ∀ letter : Char, letter.isDigit = false → ∀ word : String,
      word.toList.head? = some letter → String.ofList ((c :: rest).map Char.toLower) ≠ word := by
    rintro letter hletter word hword rfl
    rw [String.toList_ofList, List.map_cons, hlower] at hword
    rw [Option.some.inj hword] at h
    exact absurd h (by simp [hletter])
  simp [wordValue?, hne 'i' (by decide) "inf" (by decide), hne 'i' (by decide) "infinity" (by decide),
    hne 'n' (by decide) "nan" (by decide), -List.map_cons]

section Reading

variable {whole fraction tail : List Char} {exponent : Int}

/-- Digits with a point before an exponent or the end are read as the double nearest to the
decimal. -/
theorem readMagnitude?_point (hwhole : AreDigits whole) (hne : whole ≠ [])
    (hfraction : AreDigits fraction) (htail : EndsRun tail)
    (hexponent : readExponent? tail = some exponent) :
    readMagnitude? (whole ++ '.' :: (fraction ++ tail)) =
      some (nearestOf (Nat.ofDigitChars 10 (whole ++ fraction) 0) (exponent - fraction.length)) := by
  have hword : wordValue? (String.ofList ((whole ++ '.' :: (fraction ++ tail)).map Char.toLower)) =
      none := by
    obtain ⟨c, whole, rfl⟩ := List.exists_cons_of_ne_nil hne
    exact wordValue?_eq_none (hwhole c (by simp)) _
  have hempty : (digitValues whole).isEmpty = false := by simpa [digitValues] using hne
  have hvalue : ofDigits (digitValues whole ++ digitValues fraction) =
      Nat.ofDigitChars 10 (whole ++ fraction) 0 := by
    rw [← ofDigits_digitValues, digitValues, digitValues, digitValues, List.map_append]
  have hlength : (digitValues fraction).length = fraction.length := by
    rw [digitValues, List.length_map]
  simp only [readMagnitude?, hword, spanDigits_append hwhole (endsRun_point _),
    spanDigits_append hfraction htail, hempty, hexponent, hvalue, hlength, Bool.false_and,
    Option.map_some]
  rfl

/-- Digits before an exponent are read as the double nearest to the decimal. -/
theorem readMagnitude?_power (hwhole : AreDigits whole) (hne : whole ≠ []) (power : Int) :
    readMagnitude? (whole ++ exponentText power) =
      some (nearestOf (Nat.ofDigitChars 10 whole 0) power) := by
  have hword : wordValue? (String.ofList ((whole ++ exponentText power).map Char.toLower)) =
      none := by
    obtain ⟨c, whole, rfl⟩ := List.exists_cons_of_ne_nil hne
    exact wordValue?_eq_none (hwhole c (by simp)) _
  have hempty : (digitValues whole).isEmpty = false := by simpa [digitValues] using hne
  have hspan := spanDigits_append hwhole (endsRun_exponentText power)
  have hexponent := readExponent?_exponentText power
  obtain ⟨digits, heq, -⟩ := exists_exponentText power
  rw [heq] at hword hspan hexponent ⊢
  simp only [readMagnitude?, hword, hspan, hempty, Bool.false_and]
  change Option.map (fun exponent => nearestOf (ofDigits (digitValues whole ++ [])) (exponent - 0))
    (readExponent? ('e' :: (if power < 0 then '-' else '+') :: digits)) = _
  rw [hexponent, List.append_nil, ofDigits_digitValues, Option.map_some, sub_zero]

end Reading

/-- A text that writes a decimal: digits with a point, digits with an exponent, or both. -/
inductive Numeral : List Char → Decimal → Prop
  | positional (whole fraction : List Char) (hwhole : AreDigits whole) (hne : whole ≠ [])
      (hfraction : AreDigits fraction) (hlast : fraction ≠ []) :
    Numeral (whole ++ '.' :: fraction)
      ⟨Nat.ofDigitChars 10 (whole ++ fraction) 0, -fraction.length⟩
  | power (whole : List Char) (power : Int) (hwhole : AreDigits whole) (hne : whole ≠ []) :
    Numeral (whole ++ exponentText power) ⟨Nat.ofDigitChars 10 whole 0, power⟩
  | both (whole fraction : List Char) (power : Int) (hwhole : AreDigits whole) (hne : whole ≠ [])
      (hfraction : AreDigits fraction) :
    Numeral (whole ++ '.' :: (fraction ++ exponentText power))
      ⟨Nat.ofDigitChars 10 (whole ++ fraction) 0, power - fraction.length⟩

namespace Numeral

variable {text : List Char} {decimal : Decimal}

/-- A numeral starts with digits, after which there is a point or an exponent mark. -/
theorem exists_run (h : Numeral text decimal) : ∃ digits c rest, text = digits ++ c :: rest ∧
    AreDigits digits ∧ digits ≠ [] ∧ EndsRun (c :: rest) ∧ Text.isNumberBlank c = false := by
  cases h with
  | positional _ _ hwhole hne => exact ⟨_, _, _, rfl, hwhole, hne, endsRun_point _, by decide⟩
  | power _ power hwhole hne =>
    exact ⟨_, _, _, rfl, hwhole, hne, endsRun_exponentText power, by decide⟩
  | both _ _ _ hwhole hne => exact ⟨_, _, _, rfl, hwhole, hne, endsRun_point _, by decide⟩

/-- A numeral consists of figures. -/
theorem isFigure (h : Numeral text decimal) : ∀ c ∈ text, IsFigure c := by
  have hdigits : ∀ {digits : List Char}, AreDigits digits → ∀ c ∈ digits, IsFigure c :=
    fun h c hc => isFigure_digit (h c hc)
  have hpoint : IsFigure '.' := Or.inl (by decide)
  cases h with
  | positional whole fraction hwhole _ hfraction =>
    simp only [List.mem_append, List.mem_cons]
    rintro c (hc | rfl | hc)
    · exact hdigits hwhole c hc
    · exact hpoint
    · exact hdigits hfraction c hc
  | power whole power hwhole =>
    simp only [List.mem_append]
    rintro c (hc | hc)
    · exact hdigits hwhole c hc
    · exact isFigure_exponentText power c hc
  | both whole fraction power hwhole _ hfraction =>
    simp only [List.mem_append, List.mem_cons]
    rintro c (hc | rfl | hc | hc)
    · exact hdigits hwhole c hc
    · exact hpoint
    · exact hdigits hfraction c hc
    · exact isFigure_exponentText power c hc

/-- A numeral is read as the double nearest to its decimal. -/
theorem readMagnitude?_eq (h : Numeral text decimal) :
    readMagnitude? text = some (nearestOf decimal.digits decimal.exponent) := by
  cases h with
  | positional whole fraction hwhole hne hfraction =>
    have hread := readMagnitude?_point hwhole hne hfraction endsRun_nil rfl
    rwa [List.append_nil, zero_sub] at hread
  | power _ power hwhole hne => exact readMagnitude?_power hwhole hne power
  | both _ _ power hwhole hne hfraction =>
    exact readMagnitude?_point hwhole hne hfraction (endsRun_exponentText power)
      (readExponent?_exponentText power)

end Numeral

/-- Digits with a point among them or around them are a numeral with the value that the place of the
point gives. -/
theorem exists_numeral_placePoint (n : Nat) (whole : Int) :
    ∃ written, Numeral (placePoint (digitsOf n) whole) written ∧
      written.value = (⟨n, whole - (digitsOf n).length⟩ : Decimal).value := by
  have hdigits := areDigits_digitsOf n
  have hvalue := ofDigitChars_digitsOf n
  have hne : digitsOf n ≠ [] := Nat.toDigits_ne_nil
  generalize digitsOf n = digits at hdigits hvalue hne ⊢
  rw [placePoint]
  split
  · next hwhole =>
    refine ⟨_, .positional ['0'] (List.replicate (-whole).toNat '0' ++ digits) (areDigits_replicate 1)
      (by simp) ((areDigits_replicate _).append hdigits)
      (List.append_ne_nil_of_right_ne_nil _ hne), ?_⟩
    congr 2
    · change Nat.ofDigitChars 10 (List.replicate 1 '0' ++ _) 0 = n
      rw [Nat.ofDigitChars_append, Nat.ofDigitChars_append, Nat.ofDigitChars_replicate_zero,
        Nat.ofDigitChars_replicate_zero, Nat.mul_zero, hvalue]
    · rw [List.length_append, List.length_replicate]
      omega
  · next hwhole =>
    obtain ⟨count, hcount⟩ := Int.eq_ofNat_of_zero_le (show 0 ≤ whole by omega)
    simp only [hcount, Int.toNat_natCast]
    rcases Nat.lt_or_ge count digits.length with hlt | hle
    · have htaken : digits.take count ≠ [] := by
        rw [ne_eq, List.take_eq_nil_iff]
        exact not_or.mpr ⟨by omega, hne⟩
      have hrest : digits.drop count ≠ [] := by simpa using hlt
      rw [Nat.sub_eq_zero_of_le hlt.le, List.replicate_zero, List.append_nil,
        if_neg (by simpa using hlt)]
      refine ⟨_, .positional _ _ (hdigits.of_subset (List.take_subset _ _)) htaken
        (hdigits.of_subset (List.drop_subset _ _)) hrest, ?_⟩
      congr 2
      · rw [List.take_append_drop, hvalue]
      · rw [List.length_drop]
        omega
    · have hpadded : (digits ++ List.replicate (count - digits.length) '0').length = count := by
        rw [List.length_append, List.length_replicate]
        omega
      rw [List.take_of_length_le hpadded.le, List.drop_of_length_le hpadded.le]
      refine ⟨_, .positional (digits ++ List.replicate (count - digits.length) '0') ['0']
        (hdigits.append (areDigits_replicate _)) (List.append_ne_nil_of_left_ne_nil hne _)
        (areDigits_replicate 1) (by simp), ?_⟩
      have hten : Nat.ofDigitChars 10 (digits ++ List.replicate (count - digits.length) '0' ++
          List.replicate 1 '0') 0 = 10 * (10 ^ (count - digits.length) * n) := by
        rw [Nat.ofDigitChars_append, Nat.ofDigitChars_append, Nat.ofDigitChars_replicate_zero,
          Nat.ofDigitChars_replicate_zero, hvalue, pow_one]
      have hpower : (10 : Rat) ^ ((count : Int) - digits.length) = 10 ^ (count - digits.length) := by
        rw [← Nat.cast_sub hle, zpow_natCast]
      rw [value_eq, value_eq]
      change ((Nat.ofDigitChars 10 (digits ++ List.replicate (count - digits.length) '0' ++
          List.replicate 1 '0') 0 : Nat) : Rat) * 10 ^ (-1 : Int) =
        n * 10 ^ ((count : Int) - digits.length)
      rw [hten, hpower, zpow_neg_one]
      push_cast
      ring

/-- The text of a decimal is a numeral with the same value. -/
theorem exists_numeral_plainText (decimal : Decimal) :
    ∃ written, Numeral (plainText decimal) written ∧ written.value = decimal.value := by
  simp only [plainText]
  split
  · obtain ⟨written, hnumeral, hvalue⟩ := exists_numeral_placePoint decimal.digits
      (decimal.exponent + (digitsOf decimal.digits).length - 1 + 1)
    refine ⟨written, hnumeral, hvalue.trans ?_⟩
    congr 2
    omega
  · have hdigits := areDigits_digitsOf decimal.digits
    have hvalue := ofDigitChars_digitsOf decimal.digits
    have hne : digitsOf decimal.digits ≠ [] := Nat.toDigits_ne_nil
    generalize digitsOf decimal.digits = digits at hdigits hvalue hne ⊢
    match digits, hne with
    | [digit], hne =>
      refine ⟨_, .power [digit] _ hdigits hne, ?_⟩
      congr 2
      simp
    | digit :: next :: fraction, hne =>
      refine ⟨_, .both [digit] (next :: fraction) _ (hdigits.of_subset (by simp)) (by simp)
        (hdigits.of_subset (List.subset_cons_self _ _)), ?_⟩
      congr 2
      simp only [List.length_cons]
      omega

/-- The text of a finite double is a numeral with a sign, and its value rounds to the magnitude. -/
theorem exists_numeral_shortestText {x : Float} {negative : Bool} {d : Dyadic}
    (hx : Binary.ofFloat x = .finite negative d) :
    ∃ text written, shortestText x = String.ofList (signed negative text) ∧ Numeral text written ∧
      (if d.significand = 0 then written.digits = 0 else d.Rounds written.value) := by
  have htext : shortestText x = String.ofList (signed negative
      (if d.significand = 0 then ['0', '.', '0'] else plainText d.shortest)) := by
    rw [shortestText, textWith, hx]
    rfl
  by_cases hsignificand : d.significand = 0
  · rw [if_pos hsignificand] at htext
    refine ⟨_, _, htext, .positional ['0'] ['0'] (areDigits_replicate 1) (by simp)
      (areDigits_replicate 1) (by simp), ?_⟩
    rw [if_pos hsignificand]
    rfl
  · rw [if_neg hsignificand] at htext
    have hd := ((finite_parts hx).1.resolve_left (by rintro rfl; exact hsignificand rfl)).1
    obtain ⟨written, hnumeral, hvalue⟩ := exists_numeral_plainText d.shortest
    refine ⟨_, written, htext, hnumeral, ?_⟩
    rw [if_neg hsignificand, hvalue]
    exact Dyadic.rounds_shortest hd

/-- A double other than not-a-number is read back from its shortest text. -/
theorem readReal?_shortestText {x : Float} (h : Binary.ofFloat x ≠ .nan) :
    readReal? (shortestText x) = some x := by
  rcases hx : Binary.ofFloat x with - | negative | ⟨negative, d⟩
  · exact absurd hx h
  · rw [eq_of_infinite hx]
    simp only [shortestText, textWith]
    cases negative with
    | false => rfl
    | true => rfl
  · obtain ⟨text, written, heq, hnumeral, hrounds⟩ := exists_numeral_shortestText hx
    obtain ⟨digits, c, rest, rfl, hdigits, hne, -⟩ := hnumeral.exists_run
    have hbare := isBare_of_isFigure (fun _ => IsFigure.isNumberBlank)
      (isFigure_signed hnumeral.isFigure negative)
    rw [heq, readReal?, String.toList_ofList, hbare.stripBy_eq, spanSign_signed hdigits hne]
    simp only [hnumeral.readMagnitude?_eq, Option.map_some, nearestOf_eq hx hrounds]

/-- The shortest text of a finite double is not read as an integer. -/
theorem readInteger_shortestText {x : Float} (h : Binary.ofFloat x ≠ .nan) (n : Int) :
    readInteger (shortestText x) ≠ .value n := by
  rcases hx : Binary.ofFloat x with - | negative | ⟨negative, d⟩
  · exact absurd hx h
  · simp only [shortestText, textWith, hx]
    cases negative with
    | false => exact nofun
    | true => exact nofun
  · obtain ⟨text, written, heq, hnumeral, -⟩ := exists_numeral_shortestText hx
    obtain ⟨digits, c, rest, rfl, hdigits, hne, hends, hblank⟩ := hnumeral.exists_run
    rw [heq, readInteger_signed hdigits hne hends, List.all_cons, hblank, Bool.false_and]
    split <;> exact nofun

end PatternCovering.Decimal
