import PatternCovering.Proofs.Double.Order
import PatternCovering.Proofs.Numeric

/-!
# Numbers among plain data

Integers in the range of doubles, flags and all doubles are numbers among plain data, and doubles are
the real ones. An integer is turned into a double where it meets one.
-/

namespace PatternCovering

namespace Datum

/-- Whether data is a number that is in the range of doubles. -/
def IsNumber (given : Datum) : Prop := ∃ n : Number, given = .number n ∧ n.hasFloat = true

/-- Whether data is a double. -/
def IsReal (given : Datum) : Prop := ∃ x, given = .float x

/-- Numbers in the range of doubles are combined, on doubles where one of them is a double. -/
theorem combine_lift {a b : Number} (ha : a.hasFloat = true) (hb : b.hasFloat = true)
    (onInt : Int → Int → Int) (onFloat : Float → Float → Float) :
    ∃ result, combine (Number.lift onInt onFloat) a b = .ok result ∧
      (IsReal (.number a) ∨ IsReal (.number b) → IsReal result) := by
  have hcompatible : a.compatible b = true := by
    simp only [Number.compatible]
    split <;> simp [ha, hb]
  refine ⟨_, by rw [combine, if_pos hcompatible], fun hreal => ?_⟩
  have hfloat : a.int? = none ∨ b.int? = none := by
    rcases hreal with ⟨x, hx⟩ | ⟨x, hx⟩
    · exact Or.inl (by rw [Datum.number.inj hx]; rfl)
    · exact Or.inr (by rw [Datum.number.inj hx]; rfl)
  rcases hfloat with hnone | hnone
  · exact ⟨onFloat a.toFloat b.toFloat, by simp [Number.lift, hnone, Datum.float]⟩
  · exact ⟨onFloat a.toFloat b.toFloat, by cases a.int? <;> simp [Number.lift, hnone, Datum.float]⟩

/-- Doubles as data are compared as doubles. -/
theorem le_float (x y : Float) : Quantity.le (float x) (float y) = decide (x ≤ y) := rfl

/-- Doubles as data are compared as doubles. -/
theorem lt_float (x y : Float) : Quantity.lt (float x) (float y) = decide (x < y) := rfl

/-- Doubles as data are equal as doubles. -/
theorem eq_float (x y : Float) : Quantity.eq (float x) (float y) = (x == y) := rfl

end Datum

/-- Numbers in the range of doubles are numbers among plain data, and doubles are the real ones. -/
instance : Numeric Datum where
  IsNumber := Datum.IsNumber
  IsReal := Datum.IsReal
  isNumber := fun ⟨x, hx⟩ => ⟨.float x, hx, rfl⟩
  zero := ⟨0.0, rfl⟩
  ofInt_zero := ⟨.int 0, rfl, by decide⟩
  isReal h := by
    obtain ⟨x, -, h⟩ := bind_eq_ok.mp h
    exact ⟨x, (Except.ok.inj h).symm⟩
  add? := by
    rintro _ _ ⟨a, rfl, ha⟩ ⟨b, rfl, hb⟩
    exact Datum.combine_lift ha hb _ _
  sub? := by
    rintro _ _ ⟨a, rfl, ha⟩ ⟨b, rfl, hb⟩
    exact Datum.combine_lift ha hb _ _
  lt? := by
    rintro _ _ ⟨a, rfl, -⟩ ⟨b, rfl, -⟩
    exact ⟨_, rfl⟩
  le? := by
    rintro _ _ ⟨a, rfl, -⟩ ⟨b, rfl, -⟩
    exact ⟨_, rfl⟩
  lt?_ofInt m n := by
    change Except.ok (decide ((m : Rat) < n)) = _
    simp
  le?_ofInt m n := by
    change Except.ok (decide ((m : Rat) ≤ n)) = _
    simp
  le_trans := by
    rintro _ _ _ ⟨x, rfl⟩ ⟨y, rfl⟩ ⟨z, rfl⟩ hxy hyz
    simp only [Datum.le_float, decide_eq_true_eq, Double.le_iff_place] at hxy hyz ⊢
    exact ⟨⟨hxy.1.1, hyz.1.2⟩, hxy.2.trans hyz.2⟩
  le_total := by
    rintro _ _ ⟨x, rfl⟩ ⟨y, rfl⟩ hx hy
    simp only [Datum.le_float, decide_eq_true_eq, Double.le_iff_place] at hx hy ⊢
    exact (le_total _ _).imp (fun h => ⟨⟨hx.1.1, hy.1.1⟩, h⟩) fun h => ⟨⟨hy.1.1, hx.1.1⟩, h⟩
  lt_eq := by
    rintro _ _ ⟨x, rfl⟩ ⟨y, rfl⟩
    rw [Datum.lt_float, Datum.le_float, Datum.le_float, Bool.eq_iff_iff]
    simp [Double.lt_iff_le_not_le]
  eq_eq := by
    rintro _ _ ⟨x, rfl⟩ ⟨y, rfl⟩
    rw [Datum.eq_float, Datum.le_float, Datum.le_float, Bool.eq_iff_iff]
    simp [Double.beq_iff_le_le]

/-- A double can only be added to a number, and then the sum is a double. -/
instance : RealSums Datum where
  isReal_add := by
    rintro _ b sum ⟨x, rfl⟩ h
    cases b with
    | number n =>
      change (if (Number.float x).compatible n then Except.ok (Datum.number _) else _) = _ at h
      split at h
      · exact ⟨_, (Except.ok.inj h).symm⟩
      · cases h
    | _ => cases h

/-- A double is multiplied by a count that is in the range of doubles. -/
theorem Numeric.mul?_of_hasFloat {dual : Datum} (hdual : Numeric.IsReal dual) {count : Nat}
    (hrange : (Number.int count).hasFloat = true) :
    ∃ product, Quantity.mul? dual (Quantity.ofInt (count : Int)) = .ok product ∧
      Numeric.IsReal product := by
  obtain ⟨x, rfl⟩ := hdual
  obtain ⟨product, hproduct, hreal⟩ := Datum.combine_lift (a := .float x) rfl hrange (· * ·) (· * ·)
  exact ⟨product, hproduct, hreal (Or.inl ⟨x, rfl⟩)⟩

/-- A double is multiplied by a count, unless the count is beyond the range of doubles. -/
theorem Numeric.mul?_count {dual : Datum} (hdual : Numeric.IsReal dual) (count : Nat) :
    (∃ product, Quantity.mul? dual (Quantity.ofInt (count : Int)) = .ok product ∧
      Numeric.IsReal product) ∨
      ∃ fault, fault = Fault.integerTooLarge ∧
        Quantity.mul? dual (Quantity.ofInt (count : Int)) = .error fault := by
  by_cases hrange : (Number.int count).hasFloat = true
  · exact Or.inl (mul?_of_hasFloat hdual hrange)
  · obtain ⟨x, rfl⟩ := hdual
    exact Or.inr ⟨_, rfl, if_neg hrange⟩

/-- Duals that are numbers are read if there is one for each item. -/
theorem exists_readDuals {numItems : Int} {given : List Datum}
    (hlength : (given.length : Int) = numItems) (hgiven : ∀ dual ∈ given, Numeric.IsNumber dual) :
    ∃ duals, readDuals numItems given = .ok duals := by
  have hread : ∀ dual ∈ given, ∃ value, Quantity.real? dual = .ok value ∧ True := by
    intro dual hdual
    obtain ⟨n, rfl, hn⟩ := hgiven dual hdual
    exact ⟨.float n.toFloat, by simp [Quantity.real?, Datum.real, Number.float?, hn, bind,
      Except.bind, pure, Except.pure], trivial⟩
  obtain ⟨duals, hduals, -⟩ := exists_mapM_eq_ok hread
  refine ⟨duals, ?_⟩
  rw [readDuals, if_pos (by simpa [Position.eq, Position.ofNat, Position.ofInt] using hlength)]
  exact hduals

/-- Doubles are multiplied by counts of moderate size. -/
theorem Numeric.countsUpTo_datum {most : Nat} (h : most < 2 ^ 256) :
    Numeric.CountsUpTo Datum most := by
  intro dual count hdual hcount
  have hlt : nearestWord count 1 < Binary.infinityWord := Double.nearestWord_lt (hcount.trans_lt h)
  exact mul?_of_hasFloat hdual (decide_eq_true hlt)

end PatternCovering
