import PatternCovering.Decimal.Shortest
import PatternCovering.Proofs.Double.Values

/-!
# The double nearest to a quotient

The numbers that round to a double reach from half a place below it to half a place above it, and
only a quarter below it where the next smaller double is half as far away. The ends belong to them
exactly if the significand is even. A quotient among these numbers has this double as its nearest one:
scaled to a significand of full length it is at most half a place from the significand, or so little
below a power of two that it is rounded up to it and carries into the exponent.
-/

namespace PatternCovering

/-- The lower end of the numbers that round to a magnitude. -/
def Dyadic.low (d : Dyadic) : Rat := (d.significand - d.gapBelow / 4) * 2 ^ d.exponent

/-- The upper end of the numbers that round to a magnitude. -/
def Dyadic.high (d : Dyadic) : Rat := (d.significand + 1 / 2) * 2 ^ d.exponent

/-- Whether a number rounds to a magnitude. -/
def Dyadic.Rounds (d : Dyadic) (q : Rat) : Prop :=
  d.low ≤ q ∧ q ≤ d.high ∧ (d.significand % 2 = 0 ∨ d.low < q ∧ q < d.high)

namespace Double

/-- A quotient that is at most half away from a natural number is rounded to it, half only if it is
even. -/
theorem divHalfEven_eq {num den s : Nat} (hden : 0 < den) (hlow : (s : Rat) - 1 / 2 ≤ num / den)
    (hhigh : (num / den : Rat) ≤ s + 1 / 2)
    (htie : s % 2 = 0 ∨ (s : Rat) - 1 / 2 < num / den ∧ (num / den : Rat) < s + 1 / 2) :
    divHalfEven num den = s := by
  have hpos : (0 : Rat) < den := by exact_mod_cast hden
  rw [le_div_iff₀ hpos] at hlow
  rw [div_le_iff₀ hpos] at hhigh
  rw [lt_div_iff₀ hpos, div_lt_iff₀ hpos] at htie
  have hbelow : 2 * (s * den) ≤ 2 * num + den := by
    have : (2 * (s * den) : Rat) ≤ 2 * num + den := by linarith
    exact_mod_cast this
  have habove : 2 * num ≤ 2 * (s * den) + den := by
    have : (2 * num : Rat) ≤ 2 * (s * den) + den := by linarith
    exact_mod_cast this
  have hstrict : s % 2 = 0 ∨ 2 * (s * den) < 2 * num + den ∧ 2 * num < 2 * (s * den) + den := by
    refine htie.imp_right fun h => ⟨?_, ?_⟩
    · have : (2 * (s * den) : Rat) < 2 * num + den := by linarith [h.1]
      exact_mod_cast this
    · have : (2 * num : Rat) < 2 * (s * den) + den := by linarith [h.2]
      exact_mod_cast this
  have hsplit := Nat.div_add_mod num den
  have hmod := Nat.mod_lt num hden
  simp only [divHalfEven]
  generalize num / den = quotient at hsplit ⊢
  generalize num % den = rest at hsplit hmod ⊢
  have hcases : quotient = s ∨ quotient + 1 = s := by
    have hle : quotient < s + 1 := by
      by_contra hnot
      have : (s + 1) * den ≤ quotient * den := Nat.mul_le_mul_right _ (by omega)
      nlinarith
    have hge : s < quotient + 2 := by
      by_contra hnot
      have : (quotient + 2) * den ≤ s * den := Nat.mul_le_mul_right _ (by omega)
      nlinarith
    omega
  rcases hcases with rfl | rfl
  · have hcomm : den * quotient = quotient * den := Nat.mul_comm _ _
    split <;> [rfl; split] <;> [omega; split] <;> omega
  · have hcomm : den * quotient = quotient * den := Nat.mul_comm _ _
    have hsucc : (quotient + 1) * den = quotient * den + den := Nat.succ_mul _ _
    split <;> [omega; split] <;> [omega; split] <;> omega

/-- A power of two by a natural exponent is the one by the integer. -/
theorem powTwo_toNat {exponent : Int} (h : 0 ≤ exponent) :
    (powTwo exponent.toNat : Rat) = 2 ^ exponent := by
  obtain ⟨n, rfl⟩ := Int.eq_ofNat_of_zero_le h
  simp [powTwo]

/-- A quotient is scaled by a power of two in its denominator or in its numerator. -/
theorem exists_scaled {num den : Nat} (hden : 0 < den) (scale : Int) :
    ∃ top bottom : Nat, 0 < bottom ∧ (top / bottom : Rat) = num / den / 2 ^ scale ∧
      (if 0 ≤ scale then divHalfEven num (den * powTwo scale.toNat)
        else divHalfEven (num * powTwo (-scale).toNat) den) = divHalfEven top bottom := by
  split
  · next hscale =>
    refine ⟨num, den * powTwo scale.toNat, Nat.mul_pos hden (Nat.two_pow_pos _), ?_, rfl⟩
    rw [Nat.cast_mul, powTwo_toNat hscale, div_div]
  · next hscale =>
    refine ⟨num * powTwo (-scale).toNat, den, hden, ?_, rfl⟩
    rw [Nat.cast_mul, powTwo_toNat (by omega), zpow_neg]
    ring

/-- A positive natural number has the binary logarithm as the power of its leading digit. -/
theorem log2_bounds {n : Nat} (h : 0 < n) :
    (2 : Rat) ^ (n.log2 : Int) ≤ n ∧ (n : Rat) < 2 ^ ((n.log2 : Int) + 1) := by
  constructor
  · exact_mod_cast Nat.log2_self_le h.ne'
  · exact_mod_cast (Nat.lt_log2_self : n < 2 ^ (n.log2 + 1))

/-- A quotient is scaled to 53 binary digits, unless that is below the least exponent. -/
theorem scaleOf_eq {num den : Nat} (hnum : 0 < num) (hden : 0 < den) :
    ∃ scale : Int, scaleOf num den = max scale (-1074) ∧
      (2 : Rat) ^ (scale + 52) ≤ num / den ∧ (num / den : Rat) < 2 ^ (scale + 53) := by
  have hpos : (0 : Rat) < den := by exact_mod_cast hden
  obtain ⟨hnumLow, hnumHigh⟩ := log2_bounds hnum
  obtain ⟨hdenLow, hdenHigh⟩ := log2_bounds hden
  generalize hguess : (num.log2 : Int) - den.log2 - 52 = guess
  -- the logarithms leave open whether the quotient has one binary digit less
  have hshort : ∀ short : Bool,
      (if 0 ≤ guess then decide (num < powTwo 52 * den * powTwo guess.toNat)
        else decide (num * powTwo (-guess).toNat < powTwo 52 * den)) = short →
      (short = true ↔ (num / den : Rat) < 2 ^ (guess + 52)) := by
    rintro short rfl
    have hpower : (powTwo 52 : Rat) = 2 ^ (52 : Int) := @powTwo_toNat 52 (by decide)
    rw [div_lt_iff₀ hpos, zpow_add₀ two_ne_zero, ← hpower]
    split
    · next hnonneg =>
      rw [decide_eq_true_eq, ← powTwo_toNat hnonneg, ← @Nat.cast_lt Rat]
      push_cast
      rw [mul_comm (powTwo guess.toNat : Rat), mul_right_comm]
    · next hnegative =>
      have hinverse : (2 : Rat) ^ guess = (powTwo (-guess).toNat : Rat)⁻¹ := by
        rw [powTwo_toNat (by omega), zpow_neg, inv_inv]
      have hfactor : (0 : Rat) < powTwo (-guess).toNat := by exact_mod_cast Nat.two_pow_pos _
      rw [decide_eq_true_eq, hinverse, ← @Nat.cast_lt Rat]
      push_cast
      rw [mul_assoc, mul_comm (_ : Rat)⁻¹, ← div_eq_mul_inv, lt_div_iff₀ hfactor]
  have hlow : (2 : Rat) ^ (guess + 51) ≤ num / den := by
    rw [le_div_iff₀ hpos]
    calc (2 : Rat) ^ (guess + 51) * den ≤ 2 ^ (guess + 51) * 2 ^ ((den.log2 : Int) + 1) := by gcongr
      _ = 2 ^ (num.log2 : Int) := by rw [← zpow_add₀ two_ne_zero]; congr 1; omega
      _ ≤ num := hnumLow
  have hhigh : (num / den : Rat) < 2 ^ (guess + 53) := by
    rw [div_lt_iff₀ hpos]
    calc (num : Rat) < 2 ^ ((num.log2 : Int) + 1) := hnumHigh
      _ = 2 ^ (guess + 53) * 2 ^ (den.log2 : Int) := by
        rw [← zpow_add₀ two_ne_zero]; congr 1; omega
      _ ≤ 2 ^ (guess + 53) * den := by gcongr
  simp only [scaleOf, hguess]
  generalize (if 0 ≤ guess then _ else _ : Bool) = short at hshort ⊢
  have hshort := hshort short rfl
  cases short with
  | true =>
    refine ⟨guess - 1, rfl, ?_, ?_⟩
    · rwa [show guess - 1 + 52 = guess + 51 by ring]
    · rw [show guess - 1 + 53 = guess + 52 by ring]
      exact hshort.mp rfl
  | false =>
    refine ⟨guess, rfl, ?_, hhigh⟩
    by_contra hnot
    exact absurd (hshort.mpr (not_le.mp hnot)) (by simp)

/-- The word of a magnitude with a full significand or the least exponent. -/
def wordOf (d : Dyadic) : Nat := (d.exponent + 1074).toNat * powTwo 52 + d.significand

variable {d : Dyadic} {num den : Nat}

/-- The gap below a magnitude is a quarter or a half. -/
theorem gapBelow_cases (d : Dyadic) :
    (d.gapBelow = 1 ∧ d.significand = 2 ^ 52 ∧ -1074 < d.exponent) ∨
      (d.gapBelow = 2 ∧ ¬ (d.significand = 2 ^ 52 ∧ -1074 < d.exponent)) := by
  rw [Dyadic.gapBelow]
  split
  · next h => exact Or.inl ⟨rfl, h.1, h.2⟩
  · next h => exact Or.inr ⟨rfl, h⟩

/-- The lower end of the numbers that round to a magnitude is at most half a place below it. -/
theorem significand_sub_le (d : Dyadic) :
    (d.significand : Rat) - 1 / 2 ≤ d.significand - d.gapBelow / 4 := by
  rcases gapBelow_cases d with ⟨hgap, -⟩ | ⟨hgap, -⟩ <;> rw [hgap] <;> push_cast <;> linarith

/-- Numbers that round to a positive magnitude are positive. -/
theorem low_pos (hd : IsCanonical d) : 0 < d.low := by
  have hone : (1 : Rat) ≤ d.significand := by exact_mod_cast hd.pos
  have hsub := significand_sub_le d
  have hpos : (0 : Rat) < d.significand - d.gapBelow / 4 := by linarith
  rw [Dyadic.low]
  positivity

/-- A quotient that is scaled to the exponent of the magnitude to which it rounds is rounded to the
significand. -/
theorem divHalfEven_of_rounds {top bottom : Nat} (hbottom : 0 < bottom) {q : Rat}
    (h : d.Rounds q) (hscaled : (top / bottom : Rat) = q / 2 ^ d.exponent) :
    divHalfEven top bottom = d.significand := by
  have hpower : (0 : Rat) < 2 ^ d.exponent := by positivity
  obtain ⟨hlow, hhigh, htie⟩ := h
  have hsub := significand_sub_le d
  rw [Dyadic.low] at hlow htie
  rw [Dyadic.high] at hhigh htie
  rw [← le_div_iff₀ hpower, ← hscaled] at hlow
  rw [← div_le_iff₀ hpower, ← hscaled] at hhigh
  rw [← lt_div_iff₀ hpower, ← div_lt_iff₀ hpower, ← hscaled] at htie
  exact divHalfEven_eq hbottom (hsub.trans hlow) hhigh
    (htie.imp_right fun hstrict => ⟨hsub.trans_lt hstrict.1, hstrict.2⟩)

/-- A quotient that rounds to a magnitude is scaled to its exponent, or it is a little below a power
of two and scaled to the exponent below. -/
theorem scaleOf_cases (hd : IsCanonical d) (hnum : 0 < num) (hden : 0 < den)
    (h : d.Rounds (num / den)) :
    scaleOf num den = d.exponent ∨
      (scaleOf num den = d.exponent - 1 ∧ -1074 < d.exponent ∧ d.significand = 2 ^ 52 ∧
        (num / den : Rat) < 2 ^ (d.exponent + 52)) := by
  obtain ⟨scale, hscale, hlow, hhigh⟩ := scaleOf_eq hnum hden
  obtain ⟨hdlow, hdhigh, -⟩ := h
  have hleast := hd.low
  have hshort : (d.significand : Rat) + 1 ≤ 9007199254740992 := by exact_mod_cast hd.short
  have hsub := significand_sub_le d
  have hle : scale ≤ d.exponent := by
    by_contra hnot
    have hpower : (2 : Rat) ^ (d.exponent + 53) ≤ 2 ^ (scale + 52) :=
      zpow_le_zpow_right₀ one_le_two (by omega)
    have hbelow : d.high < 2 ^ (d.exponent + 53) := by
      rw [Dyadic.high, add_comm d.exponent, zpow_add₀ two_ne_zero]
      gcongr
      norm_num
      linarith
    linarith
  rw [hscale]
  rcases hd.long with hleastExponent | hlong
  · exact Or.inl (by omega)
  · have hlong' : (4503599627370496 : Rat) ≤ d.significand := by exact_mod_cast hlong
    have hge : d.exponent - 1 ≤ scale := by
      by_contra hnot
      have hpower : (2 : Rat) ^ (scale + 53) ≤ 2 ^ (d.exponent + 51) :=
        zpow_le_zpow_right₀ one_le_two (by omega)
      have habove : (2 : Rat) ^ (d.exponent + 51) ≤ d.low := by
        rw [Dyadic.low, add_comm d.exponent, zpow_add₀ two_ne_zero]
        gcongr
        norm_num
        linarith
      linarith
    rcases (show scale = d.exponent ∨ scale = d.exponent - 1 by omega) with heq | heq
    · exact Or.inl (by omega)
    · by_cases hexponent : d.exponent = -1074
      · exact Or.inl (by omega)
      · rw [heq, show d.exponent - 1 + 53 = d.exponent + 52 by ring] at hhigh
        refine Or.inr ⟨by omega, by omega, ?_, hhigh⟩
        -- the lower end is below the power of two, which only its own significand allows
        have hclose : (d.significand : Rat) < 2 ^ 52 + 1 := by
          have hends := hdlow.trans_lt hhigh
          rw [Dyadic.low, add_comm d.exponent, zpow_add₀ two_ne_zero] at hends
          have hfactor := lt_of_mul_lt_mul_right hends (by positivity)
          have hpower : (2 : Rat) ^ (52 : Int) = 2 ^ 52 := by norm_num
          linarith
        have hnat : d.significand < 2 ^ 52 + 1 := by exact_mod_cast hclose
        omega

/-- The words of finite magnitudes are below the one of the infinity. -/
theorem wordOf_lt (hd : IsCanonical d) (hfinite : d.exponent ≤ 971) :
    wordOf d < Binary.infinityWord := by
  have hinfinity : Binary.infinityWord = 2047 * 2 ^ 52 := by decide
  have hpower : powTwo 52 = 2 ^ 52 := rfl
  have hshort := hd.short
  have hbiased : (d.exponent + 1074).toNat * 2 ^ 52 ≤ 2045 * 2 ^ 52 :=
    Nat.mul_le_mul_right _ (by omega)
  rw [wordOf, hpower, hinfinity]
  omega

/-- A quotient has the word of the magnitude to which it rounds. -/
theorem nearestWord_eq (hd : IsCanonical d) (hfinite : d.exponent ≤ 971) (hden : 0 < den)
    (h : d.Rounds (num / den)) : nearestWord num den = wordOf d := by
  have hpos : (0 : Rat) < den := by exact_mod_cast hden
  have hnum : 0 < num := by
    have hquotient := (low_pos hd).trans_le h.1
    rw [lt_div_iff₀ hpos, zero_mul] at hquotient
    exact_mod_cast hquotient
  obtain ⟨top, bottom, hbottom, hquotient, hdigits⟩ :=
    @exists_scaled num den hden (scaleOf num den)
  have hword : (scaleOf num den + 1074).toNat * powTwo 52 + divHalfEven top bottom = wordOf d := by
    rcases scaleOf_cases hd hnum hden h with hscale | ⟨hscale, hexponent, hsignificand, hbelow⟩
    · rw [hscale] at hquotient ⊢
      rw [divHalfEven_of_rounds hbottom h hquotient, wordOf]
    · rw [hscale, zpow_sub_one₀ two_ne_zero] at hquotient
      have hgap : d.gapBelow = 1 := by
        rcases gapBelow_cases d with ⟨hgap, -⟩ | ⟨-, hnot⟩
        · exact hgap
        · exact absurd ⟨hsignificand, hexponent⟩ hnot
      have hlow := h.1
      rw [Dyadic.low, hgap, hsignificand] at hlow
      rw [add_comm d.exponent, zpow_add₀ two_ne_zero] at hbelow
      have hplace : (0 : Rat) < 2 ^ d.exponent := by positivity
      rw [← le_div_iff₀ hplace] at hlow
      rw [← div_lt_iff₀ hplace] at hbelow
      have htwice : (top / bottom : Rat) = 2 * (num / den / 2 ^ d.exponent) := by
        rw [hquotient]
        field_simp
      -- rounding up to a significand that is too long carries into the exponent
      have hcarry : divHalfEven top bottom = 2 ^ 53 := by
        apply divHalfEven_eq hbottom <;> rw [htwice] <;> norm_num at hlow hbelow ⊢ <;> linarith
      obtain ⟨k, hk⟩ := Int.eq_ofNat_of_zero_le (show 0 ≤ d.exponent - 1 + 1074 by omega)
      have hnext : (d.exponent + 1074).toNat = k + 1 := by omega
      have hpower : powTwo 52 = 2 ^ 52 := rfl
      rw [hscale, hcarry, wordOf, hsignificand, hk, hnext, hpower, Int.toNat_natCast]
      ring
  rw [nearestWord, if_neg hnum.ne']
  simp only [hdigits, hword]
  exact min_eq_left (wordOf_lt hd hfinite).le

end Double

end PatternCovering
