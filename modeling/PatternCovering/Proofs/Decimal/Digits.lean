import PatternCovering.Decimal.Reader
import PatternCovering.Proofs.Text.Lines

/-!
# Digits read back

A run of decimal digits is read to its end, where neither a digit nor an underscore follows, and gives
the number that the digits write. So an integer is read back from its digits, and a text that goes on
after its digits with something other than a blank is no integer.
-/

namespace PatternCovering.Decimal

/-- Whether a text consists of the digits from zero to nine. -/
def AreDigits (text : List Char) : Prop := ∀ c ∈ text, c.isDigit = true

/-- Whether a run of digits ends before a text. -/
def EndsRun (rest : List Char) : Prop := ∀ c ∈ rest.head?, c ≠ '_' ∧ Text.digitValue? c = none

/-- A run of digits ends before the empty text. -/
theorem endsRun_nil : EndsRun [] := by simp [EndsRun]

/-- The values of digits. -/
def digitValues (text : List Char) : List Nat := text.map fun c => c.toNat - '0'.toNat

/-- The digits of a natural number are digits. -/
theorem areDigits_digitsOf (n : Nat) : AreDigits (digitsOf n) := fun _ hc =>
  Nat.isDigit_of_mem_toDigits (by decide) (by decide) hc

/-- Zeros are digits. -/
theorem areDigits_replicate (count : Nat) : AreDigits (List.replicate count '0') := fun c hc => by
  rw [List.eq_of_mem_replicate hc]
  decide

/-- Digits before digits are digits. -/
theorem AreDigits.append {first second : List Char} (hfirst : AreDigits first)
    (hsecond : AreDigits second) : AreDigits (first ++ second) := fun c hc =>
  (List.mem_append.mp hc).elim (hfirst c) (hsecond c)

/-- A part of digits consists of digits. -/
theorem AreDigits.of_subset {text part : List Char} (h : AreDigits text) (hpart : part ⊆ text) :
    AreDigits part := fun c hc => h c (hpart hc)

/-- The value of a digit from zero to nine. -/
theorem digitValue?_of_isDigit {c : Char} (h : c.isDigit = true) :
    Text.digitValue? c = some (c.toNat - '0'.toNat) := by
  rw [Char.isDigit, Bool.and_eq_true, decide_eq_true_eq, decide_eq_true_eq] at h
  have hlow : 0x30 ≤ c.toNat := h.1
  have hhigh : c.toNat < 0x30 + 10 := Nat.lt_succ_of_le h.2
  rw [Text.digitValue?, Text.digitZeros, List.find?_cons_of_pos (by simp [hlow, hhigh])]
  rfl

/-- No digits are read where a text does not start with one. -/
theorem spanDigits_of_none {c : Char} (h : Text.digitValue? c = none) (rest : List Char) :
    spanDigits (c :: rest) = ([], c :: rest) := by
  rw [spanDigits.eq_def]
  split
  · next heq =>
    obtain ⟨rfl, rfl⟩ := List.cons.inj heq
    simp [h]
  · next heq =>
    obtain ⟨rfl, rfl⟩ := List.cons.inj heq
    simp [h]
  · next heq => cases heq

/-- A digit is read before the ones that follow it without an underscore between. -/
theorem spanDigits_cons {c : Char} {digit : Nat} {rest : List Char}
    (h : Text.digitValue? c = some digit) (hrest : rest.head? ≠ some '_') :
    spanDigits (c :: rest) = (digit :: (spanDigits rest).1, (spanDigits rest).2) := by
  rw [spanDigits.eq_def]
  split
  · next heq =>
    obtain ⟨rfl, rfl⟩ := List.cons.inj heq
    exact absurd rfl hrest
  · next heq =>
    obtain ⟨rfl, rfl⟩ := List.cons.inj heq
    simp [h]
  · next heq => cases heq

/-- A run of digits is read to its end. -/
theorem spanDigits_append {text rest : List Char} (htext : AreDigits text) (hrest : EndsRun rest) :
    spanDigits (text ++ rest) = (digitValues text, rest) := by
  induction text with
  | nil =>
    cases rest with
    | nil => rfl
    | cons c rest => exact spanDigits_of_none (hrest c rfl).2 rest
  | cons c text ih =>
    have hnext : (text ++ rest).head? ≠ some '_' := by
      cases text with
      | nil => exact fun hhead => (hrest '_' hhead).1 rfl
      | cons next text =>
        rintro hhead
        have hdigit := htext next (by simp)
        rw [Option.some.inj hhead] at hdigit
        exact absurd hdigit (by decide)
    rw [List.cons_append, spanDigits_cons (digitValue?_of_isDigit (htext c (by simp))) hnext,
      ih (htext.of_subset (List.subset_cons_self c text))]
    rfl

/-- The number with the values of digits is the one that the digits write. -/
theorem ofDigits_digitValues (text : List Char) :
    ofDigits (digitValues text) = Nat.ofDigitChars 10 text 0 := by
  rw [ofDigits, digitValues, List.foldl_map]
  rfl

/-- The digits of a natural number write it. -/
theorem ofDigitChars_digitsOf (n : Nat) : Nat.ofDigitChars 10 (digitsOf n) 0 = n :=
  Nat.ofDigitChars_ten_toDigits

/-- Before a digit there is no sign. -/
theorem spanSign_digit {c : Char} (h : c.isDigit = true) (text : List Char) :
    spanSign (c :: text) = (false, c :: text) := by
  rw [spanSign.eq_def]
  split
  · next heq => exact absurd ((List.cons.inj heq).1 ▸ h) (by decide)
  · next heq => exact absurd ((List.cons.inj heq).1 ▸ h) (by decide)
  · rfl

/-- Whether a character is one of those in which numbers are written: from the plus sign to the
digits, or a small letter. -/
def IsFigure (c : Char) : Prop :=
  0x2b ≤ c.toNat ∧ c.toNat ≤ 0x39 ∨ 0x61 ≤ c.toNat ∧ c.toNat ≤ 0x7a

instance : DecidablePred IsFigure := fun c =>
  inferInstanceAs (Decidable (0x2b ≤ c.toNat ∧ c.toNat ≤ 0x39 ∨ 0x61 ≤ c.toNat ∧ c.toNat ≤ 0x7a))

/-- A digit is a figure. -/
theorem isFigure_digit {c : Char} (h : c.isDigit = true) : IsFigure c := by
  rw [Char.isDigit, Bool.and_eq_true, decide_eq_true_eq, decide_eq_true_eq] at h
  have hlow : 0x30 ≤ c.toNat := h.1
  have hhigh : c.toNat ≤ 0x39 := h.2
  exact Or.inl ⟨by omega, hhigh⟩

/-- A figure is no blank. -/
theorem IsFigure.isBlank {c : Char} (h : IsFigure c) : Text.isBlank c = false := by
  simp [Text.isBlank, Text.isNumberBlank]
  rcases h with h | h <;> omega

/-- A figure is none of the blanks that may surround a number. -/
theorem IsFigure.isNumberBlank {c : Char} (h : IsFigure c) : Text.isNumberBlank c = false :=
  (Bool.or_eq_false_iff.mp h.isBlank).1

/-- A figure does not end a line. -/
theorem IsFigure.isLineEnd {c : Char} (h : IsFigure c) : Text.isLineEnd c = false := by
  simp [Text.isLineEnd]
  rcases h with h | h <;> omega

/-- A text of figures is bare. -/
theorem isBare_of_isFigure {text : List Char} {blank : Char → Bool}
    (hblank : ∀ c, IsFigure c → blank c = false) (h : ∀ c ∈ text, IsFigure c) :
    Text.IsBare blank text :=
  ⟨fun c hc => hblank c (h c (List.mem_of_mem_head? hc)),
    fun c hc => hblank c (h c (List.mem_of_mem_getLast? hc))⟩

/-- A text with a minus sign before it, or without one. -/
def signed (negative : Bool) (text : List Char) : List Char :=
  if negative then '-' :: text else text

/-- A text of figures is one with a minus sign before it. -/
theorem isFigure_signed {text : List Char} (h : ∀ c ∈ text, IsFigure c) (negative : Bool) :
    ∀ c ∈ signed negative text, IsFigure c := by
  cases negative with
  | false => exact h
  | true =>
    rintro c hc
    rcases List.mem_cons.mp hc with rfl | hc
    · exact Or.inl (by decide)
    · exact h c hc

section Run

variable {negative : Bool} {digits rest : List Char}

/-- Before digits with or without a minus sign there are no blanks. -/
theorem dropWhile_signed (hdigits : AreDigits digits) (hne : digits ≠ []) :
    (signed negative (digits ++ rest)).dropWhile Text.isNumberBlank =
      signed negative (digits ++ rest) := by
  obtain ⟨c, digits, rfl⟩ := List.exists_cons_of_ne_nil hne
  have hblank := (isFigure_digit (hdigits c (by simp))).isNumberBlank
  cases negative with
  | false => exact List.dropWhile_cons_of_neg (by simp [hblank])
  | true => exact List.dropWhile_cons_of_neg (by decide)

/-- A minus sign before digits is read as one. -/
theorem spanSign_signed (hdigits : AreDigits digits) (hne : digits ≠ []) :
    spanSign (signed negative (digits ++ rest)) = (negative, digits ++ rest) := by
  obtain ⟨c, digits, rfl⟩ := List.exists_cons_of_ne_nil hne
  cases negative with
  | false => exact spanSign_digit (hdigits c (by simp)) _
  | true => rfl

/-- A text of digits with a sign is an integer if only blanks follow the digits, unless there are too
many digits. -/
theorem readInteger_signed (hdigits : AreDigits digits) (hne : digits ≠ []) (hrest : EndsRun rest) :
    readInteger (String.ofList (signed negative (digits ++ rest))) =
      if mostIntegerDigits < digits.length then .tooLong digits.length
      else if rest.all Text.isNumberBlank then
        .value (if negative then -(Nat.ofDigitChars 10 digits 0 : Int)
          else Nat.ofDigitChars 10 digits 0)
      else .malformed := by
  simp only [readInteger, String.toList_ofList, dropWhile_signed hdigits hne,
    spanSign_signed hdigits hne, spanDigits_append hdigits hrest, ← ofDigits_digitValues]
  have hlength : (digitValues digits).length = digits.length := by rw [digitValues, List.length_map]
  split
  · next heq =>
    rw [(Prod.mk.inj heq).1, List.length_nil] at hlength
    exact absurd (List.length_eq_zero_iff.mp hlength.symm) hne
  · next heq =>
    rw [(Prod.mk.inj heq).2] at hrest
    exact absurd rfl (hrest '_' rfl).1
  · next heq =>
    obtain ⟨rfl, rfl⟩ := Prod.mk.inj heq
    rw [hlength]

end Run

/-- The text of an integer has the digits of its magnitude and a minus sign if it is negative. -/
theorem toString_int (n : Int) :
    toString n = String.ofList (signed (decide (n < 0)) (digitsOf n.natAbs)) := by
  rw [← String.toList_inj, String.toList_ofList]
  cases n with
  | ofNat n => exact Nat.toList_repr
  | negSucc n =>
    rw [decide_eq_true (Int.negSucc_lt_zero n)]
    change ("-" ++ (n + 1).repr).toList = '-' :: digitsOf (n + 1)
    rw [String.toList_append, Nat.toList_repr]
    rfl

/-- An integer is read back from its text exactly if it has not too many digits. -/
theorem readInteger_toString {n : Int} :
    readInteger (toString n) = .value n ↔ digitCount n.natAbs ≤ mostIntegerDigits := by
  have hread := @readInteger_signed (decide (n < 0)) _ [] (areDigits_digitsOf n.natAbs)
    Nat.toDigits_ne_nil endsRun_nil
  rw [List.append_nil, ← toString_int, ofDigitChars_digitsOf, if_pos List.all_nil] at hread
  have hvalue : (if decide (n < 0) then -(n.natAbs : Int) else n.natAbs) = n := by
    split
    · next hneg =>
      rw [decide_eq_true_eq] at hneg
      omega
    · next hneg =>
      rw [decide_eq_true_eq] at hneg
      omega
  rw [hread, hvalue, digitCount, ← digitsOf]
  split
  · next hlong => exact iff_of_false nofun (not_le.mpr hlong)
  · next hshort => exact iff_of_true rfl (not_lt.mp hshort)

end PatternCovering.Decimal
