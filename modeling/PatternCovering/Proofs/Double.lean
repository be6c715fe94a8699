import PatternCovering.Quantity
import PatternCovering.Proofs.Failure
import Mathlib

/-!
# Adding to the double zero

Nothing is rounded when a double other than the negative zero is added to the positive zero: the
parts of its word are put together again as they were. Counts are written into a model in this way:
the entry is then the very double that is nearest to the count.
-/

namespace PatternCovering

namespace Double

open Float.Model Float.Model.UnpackedFloat

/-- A double other than the negative zero is unchanged when it is added to zero. -/
theorem zero_add_eq {x : Float} (h : x.toModel.unpack ≠ .zero .negative) : 0.0 + x = x := by
  have hsum : UnpackedFloat.add Format.binary64 (0.0 : Float).toModel.unpack x.toModel.unpack =
      x.toModel.unpack := by
    have hzero : (0.0 : Float).toModel.unpack = .zero .positive := rfl
    rw [hzero]
    rcases hx : x.toModel.unpack with sign | - | sign | ⟨sign, mantissa, exponent, hpos⟩
    · rfl
    · rfl
    · cases sign with
      | positive => rfl
      | negative => exact absurd hx h
    · rfl
  have hsame : Float.Model.pack x.toModel.unpack = x.toModel := by
    obtain ⟨bits, hvalid⟩ := x
    simp only [Float.Model.pack, Float.Model.unpack]
    congr
    exact pack_unpack_of_valid hvalid
  change Float.ofModel (Float.Model.pack (UnpackedFloat.add Format.binary64
    (0.0 : Float).toModel.unpack x.toModel.unpack)) = x
  rw [hsum, hsame]

/-- A word below that of infinity has another exponent and no sign. -/
theorem parts_of_lt (word : BitVec Format.binary64.numBits) (h : word.toNat < 2047 * 2 ^ 52) :
    unpackExponent word ≠ -1#11 ∧ unpackSign word = 0#1 := by
  constructor
  · intro hones
    have hexponent : (unpackExponent word).toNat = 2047 := congrArg BitVec.toNat hones
    have hfield : (unpackExponent word).toNat = word.toNat / 2 ^ 52 % 2 ^ 11 := by
      change (word.toNat >>> 52) % 2 ^ 11 = _
      rw [Nat.shiftRight_eq_div_pow]
    omega
  · apply BitVec.eq_of_toNat_eq
    change (word.toNat >>> 63) % 2 = 0
    rw [Nat.shiftRight_eq_div_pow]
    omega

/-- A double whose word is below that of infinity is unchanged when it is added to zero. -/
theorem zero_add_ofBits {word : Nat} (h : word < Binary.infinityWord) :
    0.0 + Float.ofBits (UInt64.ofNat word) = Float.ofBits (UInt64.ofNat word) := by
  have hinfinity : Binary.infinityWord = 2047 * 2 ^ 52 := by decide
  have hword : (UInt64.ofNat word).toBitVec.toNat = word := by
    change word % 2 ^ 64 = word
    omega
  obtain ⟨hexponent, hsign⟩ := parts_of_lt (UInt64.ofNat word).toBitVec (by omega)
  have hvalid : Format.binary64.Valid (UInt64.ofNat word).toBitVec :=
    ⟨fun hones => absurd hones hexponent⟩
  apply zero_add_eq
  change UnpackedFloat.unpack Format.binary64 (UnpackedFloat.pack Format.binary64
    (UnpackedFloat.unpack Format.binary64 (UInt64.ofNat word).toBitVec)) ≠ _
  rw [pack_unpack_of_valid hvalid]
  simp only [UnpackedFloat.unpack, hsign]
  rw [if_neg hexponent]
  split
  · split
    · simp [Sign.ofBitVec]
    · simp
  · simp

end Double

/-- The double nearest to a count is unchanged when it is added to zero. -/
theorem Quantity.zero_add_real {count : Nat} {amount : Datum}
    (h : Quantity.real? (Quantity.ofInt count : Datum) = .ok amount) :
    Quantity.add Quantity.zero amount = amount := by
  obtain ⟨x, hx, h⟩ := bind_eq_ok.mp h
  obtain rfl := Except.ok.inj h
  change Number.float? (.int count) = .ok x at hx
  rw [Number.float?] at hx
  split at hx
  · next hfinite =>
    obtain rfl := Except.ok.inj hx
    have hword : nearestWord count 1 < Binary.infinityWord := of_decide_eq_true hfinite
    have hvalue : (Number.int count).toFloat = Float.ofBits (UInt64.ofNat (nearestWord count 1)) := by
      rw [Number.toFloat, floatOfInt, if_neg (by omega)]
      rfl
    rw [hvalue]
    exact congrArg Datum.float (Double.zero_add_ofBits hword)
  · cases hx

end PatternCovering
