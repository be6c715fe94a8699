import PatternCovering.Proofs.Double
import PatternCovering.Proofs.Double.Nearest

/-!
# Doubles by their words

A double is known by its word, and a leading bit in the word turns a double into its opposite. The
word of a finite double without this bit is the one of its magnitude, so that a double is given back
by its sign and any quotient that rounds to its magnitude.
-/

namespace PatternCovering

namespace Double

open Float.Model UnpackedFloat

/-- Doubles with the same word are the same. -/
theorem eq_of_toBits {x y : Float} (h : x.toBits.toNat = y.toBits.toNat) : x = y := by
  rw [← Float.ofBits_toBits x, ← Float.ofBits_toBits y, UInt64.toNat_inj.mp h]

/-- A leading bit in the word turns the parts into those of the opposite. -/
theorem unpack_eq_neg {word other : BitVec Format.binary64.numBits} (hword : word.toNat < powTwo 63)
    (hother : other.toNat = powTwo 63 + word.toNat) :
    UnpackedFloat.unpack Format.binary64 other =
      (UnpackedFloat.unpack Format.binary64 word).neg := by
  have hsplit : powTwo 63 = powTwo 11 * powTwo 52 := rfl
  have hexponent : unpackExponent other = unpackExponent word := by
    rw [← BitVec.toNat_inj, toNat_unpackExponent, toNat_unpackExponent, hother, hsplit,
      Nat.add_comm, Nat.add_mul_div_right _ _ (by decide), Nat.add_mod_right]
  have hmantissa : unpackMantissa other = unpackMantissa word := by
    rw [← BitVec.toNat_inj, toNat_unpackMantissa, toNat_unpackMantissa, hother, hsplit,
      Nat.mul_add_mod_self_right]
  have hsign : Sign.ofBitVec (unpackSign word) = .positive := by
    have hbit := sign_unpackSign word
    rw [decide_eq_false (by omega)] at hbit
    rcases hcase : Sign.ofBitVec (unpackSign word) with - | -
    · rw [hcase] at hbit
      cases hbit
    · rfl
  have hopposite : Sign.ofBitVec (unpackSign other) = .negative := by
    have hbit := sign_unpackSign other
    rw [decide_eq_true (by omega)] at hbit
    rcases hcase : Sign.ofBitVec (unpackSign other) with - | -
    · rfl
    · rw [hcase] at hbit
      cases hbit
  simp only [UnpackedFloat.unpack, hexponent, hmantissa, hsign, hopposite]
  split
  · split <;> rfl
  · split
    · split <;> rfl
    · rfl

/-- A double with a leading bit in its word is the opposite of the one without it. -/
theorem neg_ofBits {word : Nat} (hword : word < Binary.infinityWord) {x : Float}
    (hx : x.toBits.toNat = powTwo 63 + word) : -(Float.ofBits (UInt64.ofNat word)) = x := by
  have hinfinity : Binary.infinityWord = 2047 * 2 ^ 52 := by decide
  have hbits : (UInt64.ofNat word).toBitVec.toNat = word := by
    change word % 2 ^ 64 = word
    omega
  have hpower : powTwo 63 = 2 ^ 63 := rfl
  obtain ⟨hexponent, -⟩ := parts_of_lt (UInt64.ofNat word).toBitVec (by omega)
  have hvalid : Format.binary64.Valid (UInt64.ofNat word).toBitVec :=
    ⟨fun hones => absurd hones hexponent⟩
  have hneg : UnpackedFloat.unpack Format.binary64 x.toBits.toBitVec =
      (UnpackedFloat.unpack Format.binary64 (UInt64.ofNat word).toBitVec).neg :=
    unpack_eq_neg (by omega) (by rw [hbits]; exact hx)
  have hparts : x.toModel.unpack =
      (Float.ofBits (UInt64.ofNat word)).toModel.unpack.neg := by
    change _ = (UnpackedFloat.unpack Format.binary64 (UnpackedFloat.pack Format.binary64
      (UnpackedFloat.unpack Format.binary64 (UInt64.ofNat word).toBitVec))).neg
    rw [pack_unpack_of_valid hvalid]
    exact hneg
  calc -(Float.ofBits (UInt64.ofNat word))
      = Float.ofModel (Float.Model.pack (Float.ofBits (UInt64.ofNat word)).toModel.unpack.neg) := rfl
    _ = Float.ofModel (Float.Model.pack x.toModel.unpack) := by rw [hparts]
    _ = x := Float.ofBits_toBits x

/-- A finite double has a significand as long as its exponent allows, or it is zero, and its word is
that of its magnitude with a leading bit where it is negative. -/
theorem finite_parts {x : Float} {negative : Bool} {d : Dyadic}
    (h : Binary.ofFloat x = .finite negative d) :
    (d = ⟨0, -1074⟩ ∨ IsCanonical d ∧ d.exponent ≤ 971) ∧
      x.toBits.toNat = (if negative then powTwo 63 else 0) + wordOf d := by
  have hpower : powTwo 63 = 2 ^ 63 ∧ powTwo 52 = 2 ^ 52 ∧ powTwo 11 = 2 ^ 11 := ⟨rfl, rfl, rfl⟩
  have hlt : x.toBits.toNat < 2 ^ 64 := x.toBits.toNat_lt
  rw [Binary.ofFloat] at h
  generalize x.toBits.toNat = word at h hlt ⊢
  simp only [Binary.ofWord, hpower] at h
  simp only [wordOf, hpower]
  split at h
  · split at h <;> cases h
  · next hones =>
    split at h
    · next hfield =>
      obtain ⟨rfl, rfl⟩ := Binary.finite.inj h
      refine ⟨?_, by simp only [decide_eq_true_eq]; split <;> omega⟩
      rcases Nat.eq_zero_or_pos (word % 2 ^ 52) with hzero | hpos
      · exact Or.inl (by rw [hzero])
      · exact Or.inr ⟨⟨hpos, by simp only; omega, le_rfl, Or.inl rfl⟩, by simp⟩
    · next hfield =>
      obtain ⟨rfl, rfl⟩ := Binary.finite.inj h
      refine ⟨Or.inr ⟨⟨by simp, by simp only; omega, by simp only; omega, Or.inr (by simp)⟩,
        by simp only; omega⟩, by simp only [decide_eq_true_eq]; split <;> omega⟩

/-- The infinities are the quotients by zero. -/
theorem eq_of_infinite {x : Float} {negative : Bool}
    (h : Binary.ofFloat x = .infinite negative) :
    x = if negative then -(1.0 / 0.0) else 1.0 / 0.0 := by
  have hpower : powTwo 63 = 2 ^ 63 ∧ powTwo 52 = 2 ^ 52 ∧ powTwo 11 = 2 ^ 11 := ⟨rfl, rfl, rfl⟩
  have htop : (1.0 / 0.0 : Float).toBits.toNat = 2047 * 2 ^ 52 := by decide +kernel
  have hbottom : (-(1.0 / 0.0) : Float).toBits.toNat = 2 ^ 63 + 2047 * 2 ^ 52 := by decide +kernel
  have hlt : x.toBits.toNat < 2 ^ 64 := x.toBits.toNat_lt
  apply eq_of_toBits
  rw [Binary.ofFloat] at h
  generalize x.toBits.toNat = word at h hlt ⊢
  simp only [Binary.ofWord, hpower] at h
  split at h
  · split at h
    · have hnegative := Binary.infinite.inj h
      cases negative with
      | false =>
        rw [decide_eq_false_iff_not] at hnegative
        rw [if_neg (by decide), htop]
        omega
      | true =>
        rw [decide_eq_true_eq] at hnegative
        rw [if_pos rfl, hbottom]
        omega
    · cases h
  · split at h <;> cases h

/-- A double is the one nearest to a quotient that rounds to its magnitude, with its sign. -/
theorem eq_nearestFloat {x : Float} {negative : Bool} {d : Dyadic} {num den : Nat}
    (h : Binary.ofFloat x = .finite negative d) (hden : 0 < den)
    (hrounds : if d.significand = 0 then num = 0 else d.Rounds (num / den)) :
    (if negative then -(nearestFloat num den) else nearestFloat num den) = x := by
  obtain ⟨hcases, hword⟩ := finite_parts h
  have hlt : wordOf d < Binary.infinityWord := by
    rcases hcases with rfl | ⟨hcanonical, hfinite⟩
    · decide
    · exact wordOf_lt hcanonical hfinite
  have hnearest : nearestWord num den = wordOf d := by
    rcases hcases with rfl | ⟨hcanonical, hfinite⟩
    · rw [if_pos rfl] at hrounds
      rw [hrounds]
      rfl
    · rw [if_neg hcanonical.pos.ne'] at hrounds
      exact nearestWord_eq hcanonical hfinite hden hrounds
  rw [nearestFloat, hnearest]
  cases negative with
  | false =>
    rw [if_neg (by decide), Nat.zero_add] at hword
    rw [if_neg (by decide), ← hword, UInt64.ofNat_toNat, Float.ofBits_toBits]
  | true => exact neg_ofBits hlt hword

end Double

end PatternCovering
