import PatternCovering.Binary
import Mathlib

/-!
# The order and the range of doubles

Doubles other than not-a-number are ordered like their places: first the infinities and the signs,
then the exponents, then the significands, the last two the other way round where the sign is
negative. The two zeros have the same place, and not-a-number is at most nothing. An integer of
moderate size is in the range of doubles.
-/

namespace PatternCovering

namespace Double

open Float.Model

/-- The place of a double among those that are numbers. -/
def place : UnpackedFloat → ℤ ×ₗ ℤ ×ₗ ℤ
  | .infinity .positive => toLex (2, toLex (0, 0))
  | .infinity .negative => toLex (-2, toLex (0, 0))
  | .finite .positive mantissa exponent _ => toLex (1, toLex (exponent, (mantissa : ℤ)))
  | .finite .negative mantissa exponent _ => toLex (-1, toLex (-exponent, -(mantissa : ℤ)))
  | .zero _ | .notANumber => toLex (0, toLex (0, 0))

/-- Numbers are compared like their places. -/
theorem compare_eq_place {x y : UnpackedFloat} (hx : x ≠ .notANumber) (hy : y ≠ .notANumber) :
    x.compare y = some (compare (place x) (place y)) := by
  have hcast : ∀ m n : ℕ, compare (m : ℤ) n = compare m n := by
    intro m n
    rw [← cmp_eq_compare, ← cmp_eq_compare]
    exact Nat.strictMono_cast.cmp_map_eq m n
  have hneg : ∀ a b : ℤ, compare (-a) (-b) = (compare a b).swap := by
    intro a b
    rw [← cmp_eq_compare, ← cmp_eq_compare, cmp_swap]
    exact StrictAnti.cmp_map_eq (fun _ _ h => neg_lt_neg h) a b
  cases x with
  | notANumber => exact absurd rfl hx
  | infinity sx =>
    cases y with
    | notANumber => exact absurd rfl hy
    | infinity sy => cases sx <;> cases sy <;> rfl
    | zero sy => cases sx <;> rfl
    | finite sy my ey hmy => cases sx <;> cases sy <;> rfl
  | zero sx =>
    cases y with
    | notANumber => exact absurd rfl hy
    | infinity sy => cases sy <;> rfl
    | zero sy => rfl
    | finite sy my ey hmy => cases sy <;> rfl
  | finite sx mx ex hmx =>
    cases y with
    | notANumber => exact absurd rfl hy
    | infinity sy => cases sx <;> cases sy <;> rfl
    | zero sy => cases sx <;> rfl
    | finite sy my ey hmy =>
      -- only doubles of the same sign are compared by their exponents and significands
      cases sx with
      | positive =>
        cases sy with
        | positive =>
          simp [UnpackedFloat.compare, place, Prod.Lex.compare_def, compareLex, compareOn, hcast]
        | negative => rfl
      | negative =>
        cases sy with
        | positive => rfl
        | negative =>
          simp [UnpackedFloat.compare, place, Prod.Lex.compare_def, compareLex, compareOn, hcast,
            hneg, Ordering.swap_then]

/-- A comparison with not-a-number has no answer. -/
theorem compare_eq_none {x y : UnpackedFloat} (h : x = .notANumber ∨ y = .notANumber) :
    x.compare y = none := by
  rcases h with rfl | rfl
  · rfl
  · cases x with
    | notANumber => rfl
    | infinity sign => cases sign <;> rfl
    | zero sign => rfl
    | finite sign mantissa exponent hpos => cases sign <;> rfl

/-- A double is at most another one if both are numbers and its place is. -/
theorem le_iff_place (x y : Float) :
    x ≤ y ↔ (x.toModel.unpack ≠ .notANumber ∧ y.toModel.unpack ≠ .notANumber) ∧
      place x.toModel.unpack ≤ place y.toModel.unpack := by
  have hmodel : x ≤ y ↔ (x.toModel.unpack.compare y.toModel.unpack).any (·.isLE) = true := by
    change decide (x.toModel ≤ y.toModel) = true ↔ _
    rw [decide_eq_true_iff]
    rfl
  rw [hmodel]
  by_cases hnumbers : x.toModel.unpack ≠ .notANumber ∧ y.toModel.unpack ≠ .notANumber
  · rw [compare_eq_place hnumbers.1 hnumbers.2]
    simp [hnumbers, Ordering.isLE_iff_ne_gt, compare_gt_iff_gt]
  · rw [compare_eq_none (by tauto)]
    simp [hnumbers]

/-- A double is less than another one if it is at most as large and the other one is not. -/
theorem lt_iff_le_not_le (x y : Float) : x < y ↔ x ≤ y ∧ ¬ y ≤ x := by
  have hmodel : x < y ↔ x.toModel.unpack.compare y.toModel.unpack = some .lt := by
    change decide (x.toModel < y.toModel) = true ↔ _
    rw [decide_eq_true_iff]
    exact beq_iff_eq
  rw [hmodel, le_iff_place, le_iff_place]
  by_cases hnumbers : x.toModel.unpack ≠ .notANumber ∧ y.toModel.unpack ≠ .notANumber
  · rw [compare_eq_place hnumbers.1 hnumbers.2]
    simp only [Option.some.injEq, compare_lt_iff_lt, hnumbers, ne_eq, not_false_eq_true, and_self,
      true_and, not_le]
    exact ⟨fun h => ⟨le_of_lt h, h⟩, fun h => h.2⟩
  · rw [compare_eq_none (by tauto)]
    simp [hnumbers]

/-- Doubles are equal if each is at most the other one. -/
theorem beq_iff_le_le (x y : Float) : (x == y) = true ↔ x ≤ y ∧ y ≤ x := by
  have hmodel : (x == y) = true ↔ x.toModel.unpack.compare y.toModel.unpack = some .eq := by
    change (x.toModel.unpack.compare y.toModel.unpack == some .eq) = true ↔ _
    exact beq_iff_eq
  rw [hmodel, le_iff_place, le_iff_place]
  by_cases hnumbers : x.toModel.unpack ≠ .notANumber ∧ y.toModel.unpack ≠ .notANumber
  · rw [compare_eq_place hnumbers.1 hnumbers.2]
    simp only [Option.some.injEq, compare_eq_iff_eq, hnumbers, ne_eq, not_false_eq_true, and_self,
      true_and]
    exact le_antisymm_iff
  · rw [compare_eq_none (by tauto)]
    simp [hnumbers]

/-- The scale of a positive natural number brings it to 53 or 54 binary digits. -/
theorem scaleOf_bounds (num : Nat) :
    (num.log2 : Int) - 53 ≤ scaleOf num 1 ∧ scaleOf num 1 ≤ max ((num.log2 : Int) - 52) (-1074) := by
  have hone : Nat.log2 1 = 0 := by decide
  simp only [scaleOf, hone]
  generalize (if 0 ≤ (num.log2 : Int) - (0 : Nat) - 52 then _ else _) = short
  cases short <;> simp <;> omega

/-- A natural number below a high power of two is nearest to a finite double. -/
theorem nearestWord_lt {num : Nat} (h : num < 2 ^ 256) : nearestWord num 1 < Binary.infinityWord := by
  have hinfinity : Binary.infinityWord = 2047 * 2 ^ 52 := by decide
  rw [nearestWord]
  split
  · rw [hinfinity]
    decide
  · next hne =>
    obtain ⟨hlow, hhigh⟩ := scaleOf_bounds num
    have hlog : num.log2 < 256 := (Nat.log2_lt hne).mpr h
    have hnum : num < 2 ^ (num.log2 + 1) := Nat.lt_log2_self
    generalize scaleOf num 1 = scale at hlow hhigh
    have hsignificand : (if 0 ≤ scale then divHalfEven num (1 * powTwo scale.toNat)
        else divHalfEven (num * powTwo (-scale).toNat) 1) ≤ 2 ^ 54 := by
      have hround : ∀ top bottom : Nat, top < bottom * 2 ^ 54 → divHalfEven top bottom ≤ 2 ^ 54 := by
        intro top bottom htop
        have hquotient : top / bottom < 2 ^ 54 := Nat.div_lt_of_lt_mul htop
        simp only [divHalfEven]
        repeat' split
        all_goals omega
      split
      · next hscale =>
        apply hround
        calc num < 2 ^ (num.log2 + 1) := hnum
          _ ≤ 2 ^ (scale.toNat + 54) := Nat.pow_le_pow_right (by decide) (by omega)
          _ = 1 * powTwo scale.toNat * 2 ^ 54 := by rw [one_mul, pow_add]; rfl
      · next hscale =>
        apply hround
        rw [one_mul]
        calc num * powTwo (-scale).toNat < 2 ^ (num.log2 + 1) * powTwo (-scale).toNat :=
              Nat.mul_lt_mul_of_pos_right hnum (Nat.two_pow_pos _)
          _ = 2 ^ (num.log2 + 1 + (-scale).toNat) := (pow_add 2 _ _).symm
          _ ≤ 2 ^ 54 := Nat.pow_le_pow_right (by decide) (by omega)
    have hexponent : (scale + 1074).toNat ≤ 2022 := by omega
    have hpower : powTwo 52 = 2 ^ 52 := rfl
    refine lt_of_le_of_lt (min_le_left _ _) ?_
    rw [hinfinity, hpower]
    calc (scale + 1074).toNat * 2 ^ 52 + _ ≤ 2022 * 2 ^ 52 + 2 ^ 54 :=
          Nat.add_le_add (Nat.mul_le_mul_right _ hexponent) hsignificand
      _ < 2047 * 2 ^ 52 := by norm_num

end Double

end PatternCovering
