import PatternCovering.Proofs.Double.Words

/-!
# Shortest decimals read back

A decimal reads back as a double exactly if its value rounds to the magnitude. On a grid whose step
is less than the numbers that round to the magnitude reach, one of the two neighbours of the magnitude
is among them, and the grid of seventeen digits has such a step. So the shortest decimal is one that
reads back, and leaving out trailing zeros does not change its value.
-/

namespace PatternCovering

namespace Decimal

/-- A power of ten by a natural exponent is the one by the integer. -/
theorem powTen_toNat {exponent : Int} (h : 0 ≤ exponent) :
    (powTen exponent.toNat : Rat) = 10 ^ exponent := by
  obtain ⟨n, rfl⟩ := Int.eq_ofNat_of_zero_le h
  simp [powTen]

/-- A quotient is scaled by a power of ten. -/
theorem scaleByTen_spec {num den : Nat} (hden : 0 < den) (power : Int) :
    0 < (scaleByTen num den power).2 ∧
      ((scaleByTen num den power).1 / (scaleByTen num den power).2 : Rat) =
        num / den * 10 ^ power := by
  rw [scaleByTen]
  split
  · next hpower =>
    refine ⟨hden, ?_⟩
    rw [Nat.cast_mul, powTen_toNat hpower]
    ring
  · next hpower =>
    refine ⟨Nat.mul_pos hden (Nat.pow_pos (by decide)), ?_⟩
    rw [Nat.cast_mul, powTen_toNat (by omega), zpow_neg, div_mul_eq_div_div, div_inv_eq_mul]

/-- The value of a decimal as a product. -/
theorem value_eq (decimal : Decimal) :
    decimal.value = decimal.digits * (10 : Rat) ^ decimal.exponent := by
  obtain ⟨-, hvalue⟩ := @scaleByTen_spec decimal.digits 1 Nat.one_pos decimal.exponent
  simp only [Decimal.value]
  rw [Rat.mkRat_eq_div, Int.cast_natCast, hvalue, Nat.cast_one, div_one]

/-- The number of its digits bounds a natural number from above. -/
theorem lt_pow_digitCount (n : Nat) : n < 10 ^ digitCount n :=
  (Nat.length_toDigits_le_iff (by decide) Nat.length_toDigits_pos).mp le_rfl

/-- The number of its digits bounds a positive natural number. -/
theorem digitCount_bounds {n : Nat} (h : 0 < n) :
    (10 : Rat) ^ ((digitCount n : Int) - 1) ≤ n ∧ (n : Rat) < 10 ^ (digitCount n : Int) := by
  have hpos : 0 < digitCount n := Nat.length_toDigits_pos
  constructor
  · obtain ⟨k, hk⟩ : ∃ k, digitCount n = k + 1 := ⟨digitCount n - 1, by omega⟩
    have hle : 10 ^ k ≤ n := by
      rcases Nat.eq_zero_or_pos k with rfl | hk'
      · exact h
      · by_contra hnot
        have hlength := (Nat.length_toDigits_le_iff (by decide) hk').mpr (not_le.mp hnot)
        rw [← digitCount] at hlength
        omega
    rw [hk, Nat.cast_succ, add_sub_cancel_right]
    exact_mod_cast hle
  · exact_mod_cast lt_pow_digitCount n

/-- A quotient is at least the power of ten of its leading digit. -/
theorem leadingPower_le {num den : Nat} (hnum : 0 < num) (hden : 0 < den) :
    (10 : Rat) ^ leadingPower num den ≤ num / den := by
  have hnum' : (0 : Rat) < num := by exact_mod_cast hnum
  have hden' : (0 : Rat) < den := by exact_mod_cast hden
  simp only [leadingPower]
  split
  · next hlt =>
    have hdigits := lt_pow_digitCount (den / num)
    generalize digitCount (den / num) = count at hdigits ⊢
    obtain ⟨hpos, hscaled⟩ := @scaleByTen_spec num den hden (-(1 - (count : Int)))
    split
    · next hle =>
      have hone : (1 : Rat) ≤ num / den * 10 ^ (-(1 - (count : Int))) := by
        rw [← hscaled, one_le_div (by exact_mod_cast hpos)]
        exact_mod_cast hle
      rwa [zpow_neg, ← div_eq_mul_inv, one_le_div (by positivity)] at hone
    · -- the reciprocal is less than the power of ten that its digits bound
      have hlt : den < num * 10 ^ count :=
        calc den < num * (den / num + 1) := Nat.lt_mul_div_succ den hnum
          _ ≤ num * 10 ^ count := Nat.mul_le_mul_left num hdigits
      rw [le_div_iff₀ hden', show 1 - (count : Int) - 1 = -count by ring, zpow_neg,
        inv_mul_le_iff₀ (by positivity), zpow_natCast, mul_comm]
      exact_mod_cast hlt.le
  · next hle =>
    have hdigits := (digitCount_bounds (Nat.div_pos (not_lt.mp hle) hden)).1
    refine hdigits.trans ?_
    rw [le_div_iff₀ hden']
    exact_mod_cast Nat.div_mul_le_self num den

end Decimal

namespace Dyadic

open Double Decimal

variable {d : Dyadic}

/-- A magnitude as a quotient of natural numbers. -/
theorem quotient_spec (d : Dyadic) :
    0 < d.quotient.2 ∧ (d.quotient.1 / d.quotient.2 : Rat) = d.significand * 2 ^ d.exponent := by
  rw [quotient]
  split
  · next hexponent =>
    refine ⟨Nat.one_pos, ?_⟩
    rw [Nat.cast_mul, powTwo_toNat hexponent, Nat.cast_one, div_one]
  · next hexponent =>
    refine ⟨Nat.two_pow_pos _, ?_⟩
    rw [powTwo_toNat (by omega), zpow_neg, div_inv_eq_mul]

/-- Multiples of a quotient are compared with another quotient by cross multiplication. -/
theorem cross_le_iff {num den n m : Nat} (hden : 0 < den) (hm : 0 < m) (k : Nat) :
    (k * num * m ≤ n * den ↔ (k * (num / den) : Rat) ≤ n / m) ∧
      (n * den ≤ k * num * m ↔ (n / m : Rat) ≤ k * (num / den)) := by
  have hden' : (0 : Rat) < den := by exact_mod_cast hden
  have hm' : (0 : Rat) < m := by exact_mod_cast hm
  rw [← mul_div_assoc, div_le_div_iff₀ hden' hm', div_le_div_iff₀ hm' hden']
  exact ⟨by exact_mod_cast Iff.rfl, by exact_mod_cast Iff.rfl⟩

/-- A decimal reads back exactly if its value rounds to the magnitude. -/
theorem readsBack_iff (hpos : 0 < d.significand) (decimal : Decimal) :
    d.readsBack decimal = true ↔ d.Rounds decimal.value := by
  obtain ⟨hden, hquotient⟩ := quotient_spec ⟨1, d.exponent - 2⟩
  obtain ⟨hm, hvalue⟩ := @scaleByTen_spec decimal.digits 1 Nat.one_pos decimal.exponent
  rw [Nat.cast_one, div_one, ← value_eq] at hvalue
  simp only [Nat.cast_one, one_mul, zpow_sub₀ (two_ne_zero : (2 : Rat) ≠ 0)] at hquotient
  have hgap : d.gapBelow ≤ 4 * d.significand := by
    rcases gapBelow_cases d with ⟨hgap, -⟩ | ⟨hgap, -⟩ <;> omega
  obtain ⟨hlow, hlow'⟩ := cross_le_iff hden hm (4 * d.significand - d.gapBelow)
  obtain ⟨hhigh, hhigh'⟩ := cross_le_iff hden hm (4 * d.significand + 2)
  have hlowEq : ((4 * d.significand - d.gapBelow : Nat) : Rat) * (2 ^ d.exponent / 2 ^ (2 : Int)) =
      d.low := by
    rw [Dyadic.low, Nat.cast_sub hgap]
    push_cast
    ring
  have hhighEq : ((4 * d.significand + 2 : Nat) : Rat) * (2 ^ d.exponent / 2 ^ (2 : Int)) =
      d.high := by
    rw [Dyadic.high]
    push_cast
    ring
  rw [hquotient, hvalue, hlowEq] at hlow hlow'
  rw [hquotient, hvalue, hhighEq] at hhigh hhigh'
  simp only [readsBack, Rounds]
  by_cases heven : d.significand % 2 = 0
  · simp [heven, hlow, hhigh']
  · simp only [heven, if_false, Bool.and_eq_true, decide_eq_true_eq, false_or, ← not_le, hlow', hhigh]
    constructor
    · rintro ⟨hl, hh⟩
      exact ⟨(not_le.mp hl).le, (not_le.mp hh).le, hl, hh⟩
    · rintro ⟨-, -, hread⟩
      exact hread

/-- The numbers that round to a magnitude reach from below it to above it. -/
theorem low_lt_and_lt_high (d : Dyadic) :
    d.low < d.significand * 2 ^ d.exponent ∧ d.significand * (2 : Rat) ^ d.exponent < d.high := by
  have hplace : (0 : Rat) < 2 ^ d.exponent := by positivity
  have hgap : (0 : Rat) < d.gapBelow := by
    rcases gapBelow_cases d with ⟨hgap, -⟩ | ⟨hgap, -⟩ <;> rw [hgap] <;> norm_num
  rw [Dyadic.low, Dyadic.high]
  constructor <;> gcongr <;> linarith

/-- A magnitude lies between two decimals on a grid that are one step apart. -/
theorem exists_neighbours (d : Dyadic) (power : Int) :
    ∃ n m, scaleByTen d.quotient.1 d.quotient.2 (-power) = (n, m) ∧
      (⟨n / m, power⟩ : Decimal).value ≤ d.significand * 2 ^ d.exponent ∧
      d.significand * (2 : Rat) ^ d.exponent < (⟨n / m + 1, power⟩ : Decimal).value ∧
      (⟨n / m + 1, power⟩ : Decimal).value = (⟨n / m, power⟩ : Decimal).value + 10 ^ power := by
  obtain ⟨hden, hquotient⟩ := quotient_spec d
  obtain ⟨hm, hscaled⟩ := @scaleByTen_spec d.quotient.1 _ hden (-power)
  rw [hquotient, zpow_neg, ← div_eq_mul_inv, eq_div_iff (by positivity)] at hscaled
  generalize scaleByTen d.quotient.1 d.quotient.2 (-power) = scaled at hm hscaled
  obtain ⟨n, m⟩ := scaled
  simp only at hm hscaled
  refine ⟨n, m, rfl, ?_⟩
  have hstep : (0 : Rat) < 10 ^ power := by positivity
  have hm' : (0 : Rat) < m := by exact_mod_cast hm
  have hbelow : ((n / m : Nat) : Rat) ≤ n / m := Nat.cast_div_le
  have habove : (n / m : Rat) < (n / m : Nat) + 1 := by
    rw [div_lt_iff₀ hm', mul_comm]
    exact_mod_cast Nat.lt_mul_div_succ n hm
  simp only [value_eq, ← hscaled, Nat.cast_succ]
  exact ⟨by gcongr, by gcongr, by ring⟩

/-- A decimal that is found on a grid reads back. -/
theorem rounds_of_onGrid (hpos : 0 < d.significand) {power : Int} {decimal : Decimal}
    (h : d.onGrid? power = some decimal) : d.Rounds decimal.value := by
  obtain ⟨n, m, hscaled, -⟩ := exists_neighbours d power
  simp only [onGrid?, hscaled] at h
  split at h
  · next hbelow habove =>
    obtain rfl := Option.some.inj h
    have hdigits : divHalfEven n m = n / m ∨ divHalfEven n m = n / m + 1 := by
      simp only [divHalfEven]
      split
      · exact Or.inl rfl
      · split
        · exact Or.inr rfl
        · split
          · exact Or.inl rfl
          · exact Or.inr rfl
    rcases hdigits with hdigits | hdigits <;> rw [hdigits]
    · exact (readsBack_iff hpos _).mp hbelow
    · exact (readsBack_iff hpos _).mp habove
  · next hbelow _ => exact Option.some.inj h ▸ (readsBack_iff hpos _).mp hbelow
  · next _ habove => exact Option.some.inj h ▸ (readsBack_iff hpos _).mp habove
  · cases h

/-- On a grid whose step is less than the numbers that round to the magnitude reach, a decimal is
found. -/
theorem exists_onGrid (hpos : 0 < d.significand) {power : Int}
    (h : (10 : Rat) ^ power < d.high - d.low) : ∃ decimal, d.onGrid? power = some decimal := by
  obtain ⟨n, m, hscaled, hbelow, habove, hstep⟩ := exists_neighbours d power
  obtain ⟨hlow, hhigh⟩ := low_lt_and_lt_high d
  -- if the lower neighbour is too low and the upper one too high, they are too far apart
  have hone : d.readsBack ⟨n / m, power⟩ = true ∨ d.readsBack ⟨n / m + 1, power⟩ = true := by
    rw [readsBack_iff hpos, readsBack_iff hpos]
    by_cases hinside : d.low < (⟨n / m, power⟩ : Decimal).value
    · exact Or.inl ⟨hinside.le, by linarith, Or.inr ⟨hinside, by linarith⟩⟩
    · exact Or.inr ⟨by linarith, by linarith, Or.inr ⟨by linarith, by linarith⟩⟩
  simp only [onGrid?, hscaled]
  rcases hone with hone | hone
  · rw [hone]
    split <;> simp_all
  · rw [hone]
    split <;> simp_all

/-- The grid of seventeen digits has a step that is small enough. -/
theorem step_lt (hd : IsCanonical d) {power : Int}
    (h : (10 : Rat) ^ power ≤ d.significand * 2 ^ d.exponent) :
    (10 : Rat) ^ (power - 16) < d.high - d.low := by
  have hplace : (0 : Rat) < 2 ^ d.exponent := by positivity
  have hreach : d.high - d.low = (1 / 2 + d.gapBelow / 4) * 2 ^ d.exponent := by
    rw [Dyadic.high, Dyadic.low]
    ring
  have hshort : (d.significand : Rat) < (1 / 2 + d.gapBelow / 4) * 10 ^ 16 := by
    rcases gapBelow_cases d with ⟨hgap, hsignificand, -⟩ | ⟨hgap, -⟩
    · rw [hgap, hsignificand]
      norm_num
    · rw [hgap]
      have := hd.short
      have : (d.significand : Rat) < 2 ^ 53 := by exact_mod_cast this
      norm_num at this ⊢
      linarith
  rw [hreach, zpow_sub₀ (by norm_num), div_lt_iff₀ (by positivity)]
  calc (10 : Rat) ^ power ≤ d.significand * 2 ^ d.exponent := h
    _ < (1 / 2 + d.gapBelow / 4) * 10 ^ 16 * 2 ^ d.exponent := by gcongr
    _ = (1 / 2 + d.gapBelow / 4) * 2 ^ d.exponent * 10 ^ (16 : Int) := by
      rw [mul_right_comm]
      norm_num

end Dyadic

/-- Leaving out trailing zeros does not change the value. -/
theorem Decimal.trim_value (fuel : Nat) (decimal : Decimal) :
    (trim fuel decimal).value = decimal.value := by
  induction fuel generalizing decimal with
  | zero => rfl
  | succ fuel ih =>
    rw [trim]
    split
    · next h =>
      have hdigits : (decimal.digits : Rat) = (decimal.digits / 10 : Nat) * 10 := by
        exact_mod_cast (Nat.div_mul_cancel (Nat.dvd_of_mod_eq_zero h.2)).symm
      rw [ih, value_eq, value_eq, hdigits, zpow_add_one₀ (by norm_num)]
      ring
    · rfl

/-- The shortest decimal reads back. -/
theorem Dyadic.rounds_shortest {d : Dyadic} (hd : Double.IsCanonical d) :
    d.Rounds d.shortest.value := by
  obtain ⟨hden, hquotient⟩ := quotient_spec d
  have hpos := hd.pos
  have hnum : 0 < d.quotient.1 := by
    have hden' : (0 : Rat) < d.quotient.2 := by exact_mod_cast hden
    have hvalue : (0 : Rat) < d.quotient.1 / d.quotient.2 := by
      rw [hquotient]
      positivity
    rw [lt_div_iff₀ hden', zero_mul] at hvalue
    exact_mod_cast hvalue
  have hleading := Decimal.leadingPower_le hnum hden
  rw [hquotient] at hleading
  obtain ⟨last, hlast⟩ := exists_onGrid hd.pos (step_lt hd hleading)
  simp only [shortest, Decimal.trim_value]
  generalize leadingPower d.quotient.1 d.quotient.2 = power at hlast
  have hfound :
      ((List.range 17).findSome? fun places : Nat => d.onGrid? (power - places)).isSome := by
    rw [List.findSome?_isSome_iff]
    exact ⟨16, by decide, by rw [Nat.cast_ofNat, hlast]; rfl⟩
  obtain ⟨decimal, hdecimal⟩ := Option.isSome_iff_exists.mp hfound
  obtain ⟨places, -, hgrid⟩ := List.exists_of_findSome?_eq_some hdecimal
  rw [hdecimal, Option.getD_some]
  exact rounds_of_onGrid hd.pos hgrid

end PatternCovering
