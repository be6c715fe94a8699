import PatternCovering.Proofs.Column.Indexed

/-!
# Data that is the same key as an integer

Not-a-number is equal to nothing, so that equal numbers have equal values, and data is the same key as
an integer exactly if the integer is its value. Where positions are kept as they were given, a position
of another form that is the same key as an integer is found under the integer and nowhere else.
-/

namespace PatternCovering

namespace Double

open Float.Model UnpackedFloat

/-- A double whose parts have no value is not a number. -/
theorem unpack_eq_notANumber (word : BitVec Format.binary64.numBits)
    (h : (Binary.ofWord word.toNat).value? = none) :
    UnpackedFloat.unpack Format.binary64 word = .notANumber := by
  have hones : unpackExponent word = -1#11 ↔ word.toNat / powTwo 52 % powTwo 11 = 2047 := by
    rw [← BitVec.toNat_inj, toNat_unpackExponent]
    rfl
  have hfraction : unpackMantissa word = 0#52 ↔ word.toNat % powTwo 52 = 0 := by
    rw [← BitVec.toNat_inj, toNat_unpackMantissa]
    rfl
  simp only [Binary.ofWord] at h
  split at h
  · next hfield =>
    split at h
    · cases h
    · next hzero =>
      simp only [UnpackedFloat.unpack]
      rw [if_pos (hones.mpr hfield), if_neg (mt hfraction.mp hzero)]
  · split at h
    · cases h
    · cases h

/-- Not-a-number is equal to nothing. -/
theorem beq_eq_false {x y : Float}
    (h : x.toModel.unpack = .notANumber ∨ y.toModel.unpack = .notANumber) : (x == y) = false := by
  rw [Bool.eq_false_iff, ne_eq, beq_iff_le_le, le_iff_place]
  rintro ⟨⟨⟨hx, hy⟩, -⟩, -⟩
  exact h.elim hx hy

end Double

namespace Number

/-- A given not-a-number is one as a double. -/
theorem unpack_notANumber : notANumber.toModel.unpack = .notANumber := by
  have hparts : Binary.ofFloat notANumber = .nan := by decide +kernel
  exact Double.unpack_eq_notANumber notANumber.toModel.toBits.toBitVec (congrArg _ hparts)

/-- A number without a value is not-a-number in one of its forms. -/
theorem of_value?_eq_none {n : Number} (h : n.value? = none) :
    n.exactValue? = none ∧ n.toFloat.toModel.unpack = .notANumber := by
  cases n with
  | int n => cases h
  | flag b => cases h
  | nan mark => exact ⟨rfl, unpack_notANumber⟩
  | float x =>
    refine ⟨?_, Double.unpack_eq_notANumber x.toModel.toBits.toBitVec h⟩
    rw [value?] at h
    rcases hx : Binary.ofFloat x with - | negative | ⟨negative, magnitude⟩
    · simp [exactValue?, hx]
    · rw [hx] at h
      cases h
    · rw [hx] at h
      cases h

/-- A number without an exact value is compared as a double, to the left of another one. -/
theorem exists_eq_beq_left {m n : Number} (h : m.exactValue? = none) :
    ∃ y, m.eq n = (m.toFloat == y) := by
  rw [Number.eq, compareWith.eq_def]
  split
  · exact ⟨_, rfl⟩
  · rw [h]
    cases n.exactValue? with
    | none => exact ⟨_, rfl⟩
    | some value => exact ⟨_, rfl⟩

/-- A number without an exact value is compared as a double, to the right of another one. -/
theorem exists_eq_beq_right {m n : Number} (h : n.exactValue? = none) :
    ∃ x, m.eq n = (x == n.toFloat) := by
  rw [Number.eq, compareWith.eq_def]
  split
  · exact ⟨_, rfl⟩
  · rw [h]
    cases m.exactValue? with
    | none => exact ⟨_, rfl⟩
    | some value => exact ⟨_, rfl⟩

/-- Equal numbers have values. -/
theorem exists_value_of_eq {m n : Number} (h : m.eq n = true) :
    ∃ p q, m.value? = some p ∧ n.value? = some q := by
  rcases hm : m.value? with - | p
  · obtain ⟨hexact, hfloat⟩ := of_value?_eq_none hm
    obtain ⟨y, hy⟩ := exists_eq_beq_left (n := n) hexact
    rw [hy, Double.beq_eq_false (Or.inl hfloat)] at h
    cases h
  · rcases hn : n.value? with - | q
    · obtain ⟨hexact, hfloat⟩ := of_value?_eq_none hn
      obtain ⟨x, hx⟩ := exists_eq_beq_right (m := m) hexact
      rw [hx, Double.beq_eq_false (Or.inr hfloat)] at h
      cases h
    · exact ⟨p, q, rfl, rfl⟩

/-- Equal numbers have the same value. -/
theorem value?_eq_of_eq {m n : Number} (h : m.eq n = true) : m.value? = n.value? := by
  obtain ⟨p, q, hp, hq⟩ := exists_value_of_eq h
  rw [hp, hq, (eq_iff hp hq).mp h]

end Number

namespace Datum

/-- Data that is the same key has the same value, if any. -/
theorem value?_eq_of_same {left right : Datum} (h : left.same right = true) :
    left.value? = right.value? := by
  cases left with
  | number m =>
    cases right with
    | number n =>
      rw [same, Number.same.eq_def] at h
      split at h
      · rfl
      · exact Number.value?_eq_of_eq h
    | null | text | list | record => simp [same] at h
  | null | text | list | record =>
    cases right with
    | number n => simp [same] at h
    | null | text | list | record => rfl

/-- Data is the same key as an integer exactly if the integer is its value. -/
theorem same_int_iff_value {given : Datum} {n : Int} :
    given.same (.int n) = true ↔ given.value? = some ((n : Rat) : Extended) := by
  constructor
  · exact fun h => value?_eq_of_same h
  · exact fun h => (same_iff_value h rfl).mpr rfl

/-- Data that is the same key is the same key as the same integers. -/
theorem same_int_congr {left right : Datum} (h : left.same right = true) (n : Int) :
    left.same (.int n) = right.same (.int n) := by
  rw [Bool.eq_iff_iff, same_int_iff_value, same_int_iff_value, value?_eq_of_same h]

/-- Data that is the same key as one integer is the same key. -/
theorem same_of_same_int {left right : Datum} {n : Int} (hleft : left.same (.int n) = true)
    (hright : right.same (.int n) = true) : left.same right = true :=
  (same_iff_value (same_int_iff_value.mp hleft) (same_int_iff_value.mp hright)).mpr rfl

/-- Data that stands for an integer has its value. -/
theorem value?_of_toInt {given : Datum} {i : Int} (h : given.toInt = .ok i) :
    given.value? = some ((i : Rat) : Extended) := by
  cases given with
  | number m =>
    cases m with
    | int n => rw [← Except.ok.inj h]; rfl
    | flag b => cases b <;> rw [← Except.ok.inj h] <;> rfl
    | float | nan => cases h
  | null | text | list | record => cases h

/-- Data that stands for an integer is the same key as this integer only. -/
theorem same_int_of_toInt {given : Datum} {i : Int} (h : given.toInt = .ok i) (n : Int) :
    given.same (.int n) = decide (i = n) := by
  rw [Bool.eq_iff_iff, same_int_iff_value, value?_of_toInt h, decide_eq_true_eq, Option.some.injEq,
    Extended.coe_inj, Rat.intCast_inj]

/-- Data that stands for an integer is below what the integer is below. -/
theorem lt_int_of_toInt {given : Datum} {i : Int} (h : given.toInt = .ok i) (n : Int) :
    given.lt (.int n) = .ok (decide (i < n)) := by
  cases given with
  | number m =>
    cases m with
    | int k => rw [← Except.ok.inj h]; exact lt_int k n
    | flag b => cases b <;> rw [← Except.ok.inj h] <;> exact lt_int _ n
    | float | nan => cases h
  | null | text | list | record => cases h

/-- Data that stands for an integer is at least what the integer is at least. -/
theorem int_le_of_toInt {given : Datum} {i : Int} (h : given.toInt = .ok i) (n : Int) :
    (Datum.int n).le given = .ok (decide (n ≤ i)) := by
  cases given with
  | number m =>
    cases m with
    | int k => rw [← Except.ok.inj h]; exact le_int n k
    | flag b => cases b <;> rw [← Except.ok.inj h] <;> exact le_int n _
    | float | nan => cases h
  | null | text | list | record => cases h

end Datum

end PatternCovering
