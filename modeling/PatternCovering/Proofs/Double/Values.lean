import PatternCovering.Proofs.Double.Order
import PatternCovering.Quantity

/-!
# The values of doubles

A double other than not-a-number has a value among the rationals and the two infinities, and doubles
are compared like their values. Their places say so: significands of doubles are as long as the
exponent allows, so that of two positive doubles the one with the greater exponent is the greater one.
Integers and flags have values as well, and all forms of numbers are compared like them.
-/

namespace PatternCovering

/-- The rationals with the two infinities. -/
abbrev Extended := WithBot (WithTop Rat)

/-- Rationals are ordered as such. -/
theorem Extended.coe_lt_coe {p q : Rat} : (p : Extended) < (q : Extended) ↔ p < q :=
  WithBot.coe_lt_coe.trans WithTop.coe_lt_coe

/-- Rationals are below the positive infinity. -/
theorem Extended.coe_lt_top (p : Rat) : (p : Extended) < ⊤ :=
  WithBot.coe_lt_coe.mpr (WithTop.coe_lt_top p)

/-- Rationals are equal as such. -/
theorem Extended.coe_inj {p q : Rat} : (p : Extended) = (q : Extended) ↔ p = q :=
  WithBot.coe_inj.trans WithTop.coe_inj

/-- Rationals are not the negative infinity. -/
theorem Extended.coe_ne_bot (p : Rat) : (p : Extended) ≠ ⊥ := WithBot.coe_ne_bot

/-- The rational that a sign and a magnitude stand for. -/
def Dyadic.signed (negative : Bool) (magnitude : Dyadic) : Rat :=
  if negative then -magnitude.toRat else magnitude.toRat

/-- The value of a double by its parts, or none for not-a-number. -/
def Binary.value? : Binary → Option Extended
  | .nan => none
  | .infinite negative => some (if negative then ⊥ else ⊤)
  | .finite negative magnitude => some ((magnitude.signed negative : Rat) : Extended)

/-- The value of a number, or none for not-a-number. -/
def Number.value? : Number → Option Extended
  | int n => some ((n : Rat) : Extended)
  | flag b => some ((if b then 1 else 0 : Rat) : Extended)
  | float x => (Binary.ofFloat x).value?
  | nan _ => none

namespace Double

open Float.Model UnpackedFloat

/-- The value of a magnitude as a product. -/
theorem toRat_eq (magnitude : Dyadic) :
    magnitude.toRat = magnitude.significand * (2 : Rat) ^ magnitude.exponent := by
  obtain ⟨significand, exponent⟩ := magnitude
  rw [Dyadic.toRat]
  split
  · next hexponent =>
    obtain ⟨n, rfl⟩ := Int.eq_ofNat_of_zero_le hexponent
    simp [powTwo]
  · next hexponent =>
    obtain ⟨n, hn⟩ := Int.eq_ofNat_of_zero_le (show 0 ≤ -exponent by simp at hexponent; omega)
    obtain rfl : exponent = -(n : Int) := by omega
    simp [powTwo, Rat.mkRat_eq_div, div_eq_mul_inv]

/-- Whether a magnitude has as long a significand as its exponent allows. -/
structure IsCanonical (magnitude : Dyadic) : Prop where
  pos : 0 < magnitude.significand
  short : magnitude.significand < 2 ^ 53
  low : -1074 ≤ magnitude.exponent
  long : magnitude.exponent = -1074 ∨ 2 ^ 52 ≤ magnitude.significand

/-- Of two magnitudes with as long significands as their exponents allow, the one with the greater
exponent is the greater one. -/
theorem toRat_lt_of_exponent_lt {first second : Dyadic} (hfirst : IsCanonical first)
    (hsecond : IsCanonical second) (h : first.exponent < second.exponent) :
    first.toRat < second.toRat := by
  have hlow := hfirst.low
  have hlong : (2 : Rat) ^ 52 ≤ second.significand := by
    exact_mod_cast hsecond.long.resolve_left (by omega)
  have hshort : (first.significand : Rat) < 2 ^ 53 := by exact_mod_cast hfirst.short
  rw [toRat_eq, toRat_eq]
  calc (first.significand : Rat) * 2 ^ first.exponent < 2 ^ 53 * 2 ^ first.exponent := by gcongr
    _ = 2 ^ 52 * 2 ^ (first.exponent + 1) := by rw [zpow_add_one₀ two_ne_zero]; ring
    _ ≤ second.significand * 2 ^ second.exponent := by
      gcongr
      · norm_num
      · omega

/-- Magnitudes are ordered like their exponents, and like their significands where these agree. -/
theorem toRat_lt_of_lex {first second : Dyadic} (hfirst : IsCanonical first)
    (hsecond : IsCanonical second)
    (h : toLex (first.exponent, (first.significand : ℤ)) <
      toLex (second.exponent, (second.significand : ℤ))) :
    first.toRat < second.toRat := by
  rw [Prod.Lex.toLex_lt_toLex] at h
  rcases h with hexponent | ⟨hexponent, hsignificand⟩
  · exact toRat_lt_of_exponent_lt hfirst hsecond hexponent
  · have hlt : (first.significand : Rat) < second.significand := by
      exact_mod_cast Int.ofNat_lt.mp hsignificand
    rw [toRat_eq, toRat_eq, show first.exponent = second.exponent from hexponent]
    gcongr

/-- A magnitude that is not zero is positive. -/
theorem toRat_pos {magnitude : Dyadic} (h : IsCanonical magnitude) : 0 < magnitude.toRat := by
  have hpos : (0 : Rat) < magnitude.significand := by exact_mod_cast h.pos
  rw [toRat_eq]
  positivity

/-- Which value a double has that is a number. -/
inductive HasValue : UnpackedFloat → Extended → Prop
  | bottom : HasValue (.infinity .negative) ⊥
  | negative (magnitude : Dyadic) (h : IsCanonical magnitude) :
    HasValue (.finite .negative magnitude.significand magnitude.exponent h.pos)
      ((-magnitude.toRat : Rat) : Extended)
  | zero (sign : Sign) : HasValue (.zero sign) ((0 : Rat) : Extended)
  | positive (magnitude : Dyadic) (h : IsCanonical magnitude) :
    HasValue (.finite .positive magnitude.significand magnitude.exponent h.pos)
      ((magnitude.toRat : Rat) : Extended)
  | top : HasValue (.infinity .positive) ⊤

/-- An infinity has the value that its sign says. -/
theorem hasValue_infinity (sign : Sign) :
    HasValue (.infinity sign) (if sign == .negative then ⊥ else ⊤) := by
  cases sign with
  | negative => exact .bottom
  | positive => exact .top

/-- A finite double has the value of its sign, its significand and its exponent. -/
theorem hasValue_finite {sign : Sign} {mantissa : Nat} {exponent : Int} {hpos : 0 < mantissa}
    {magnitude : Dyadic} (h : IsCanonical magnitude) (hmantissa : mantissa = magnitude.significand)
    (hexponent : exponent = magnitude.exponent) :
    HasValue (.finite sign mantissa exponent hpos)
      ((magnitude.signed (sign == .negative) : Rat) : Extended) := by
  subst hmantissa hexponent
  cases sign with
  | negative => exact .negative magnitude h
  | positive => exact .positive magnitude h

/-- Zero has the same value with either sign. -/
theorem signed_zero (negative : Bool) (exponent : Int) :
    Dyadic.signed negative ⟨0, exponent⟩ = 0 := by
  cases negative <;> simp [Dyadic.signed, toRat_eq]

section Fields

variable (word : BitVec Format.binary64.numBits)

/-- The exponent field of a word. -/
theorem toNat_unpackExponent :
    (unpackExponent word).toNat = word.toNat / powTwo 52 % powTwo 11 := by
  change (word.toNat >>> 52) % 2 ^ 11 = _
  rw [Nat.shiftRight_eq_div_pow]
  rfl

/-- The fraction field of a word. -/
theorem toNat_unpackMantissa : (unpackMantissa word).toNat = word.toNat % powTwo 52 := by
  change (word.toNat >>> 0) % 2 ^ 52 = _
  rw [Nat.shiftRight_zero]
  rfl

/-- The fraction field of a word with the digit that is left out before it. -/
theorem toNat_append_unpackMantissa :
    (1#1 ++ unpackMantissa word).toNat = powTwo 52 + word.toNat % powTwo 52 := by
  have hor := Nat.two_pow_add_eq_or_of_lt (unpackMantissa word).isLt 1
  rw [BitVec.toNat_append, ← toNat_unpackMantissa]
  rw [Nat.mul_one] at hor
  rw [← Nat.one_shiftLeft] at hor
  exact hor.symm

/-- The sign of a word. -/
theorem sign_unpackSign :
    decide (powTwo 63 ≤ word.toNat) = (Sign.ofBitVec (unpackSign word) == .negative) := by
  have hbit : (unpackSign word).toNat = word.toNat / 2 ^ 63 % 2 := by
    change (word.toNat >>> 63) % 2 = _
    rw [Nat.shiftRight_eq_div_pow]
  have hword : word.toNat < 2 ^ 64 := word.isLt
  have hpower : powTwo 63 = 2 ^ 63 := rfl
  by_cases hpositive : unpackSign word = 0#1
  · have hzero : (unpackSign word).toNat = 0 := by rw [hpositive]; rfl
    rw [hpositive, decide_eq_false (by omega)]
    rfl
  · have hne : (unpackSign word).toNat ≠ 0 := fun heq => hpositive (BitVec.eq_of_toNat_eq heq)
    rw [Sign.ofBitVec, if_neg hpositive, decide_eq_true (by omega)]
    rfl

/-- A double whose parts have a value has this value. -/
theorem hasValue_unpack {value : Extended} (h : (Binary.ofWord word.toNat).value? = some value) :
    HasValue (UnpackedFloat.unpack Format.binary64 word) value := by
  have hones : unpackExponent word = -1#11 ↔ word.toNat / powTwo 52 % powTwo 11 = 2047 := by
    rw [← BitVec.toNat_inj, toNat_unpackExponent]
    rfl
  have hnone : unpackExponent word = 0#11 ↔ word.toNat / powTwo 52 % powTwo 11 = 0 := by
    rw [← BitVec.toNat_inj, toNat_unpackExponent]
    rfl
  have hfraction : unpackMantissa word = 0#52 ↔ word.toNat % powTwo 52 = 0 := by
    rw [← BitVec.toNat_inj, toNat_unpackMantissa]
    rfl
  have hbias : ((Format.binary64.exponentBias : Int) + (52 : Nat)) = 1075 := by decide
  have hlt : word.toNat % powTwo 52 < 2 ^ 52 := Nat.mod_lt _ (by decide)
  simp only [Binary.ofWord, sign_unpackSign] at h
  simp only [UnpackedFloat.unpack, hones, hnone, toNat_unpackExponent, hbias]
  split
  · next hfield =>
    rw [if_pos hfield] at h
    split
    · next hzero =>
      rw [if_pos (hfraction.mp hzero)] at h
      exact Option.some.inj h ▸ hasValue_infinity _
    · next hzero =>
      rw [if_neg (mt hfraction.mpr hzero)] at h
      cases h
  · next hfield =>
    rw [if_neg hfield] at h
    split
    · next hnormal =>
      rw [if_pos hnormal] at h
      split
      · next hzero =>
        rw [hfraction.mp hzero, Binary.value?, signed_zero] at h
        exact Option.some.inj h ▸ .zero _
      · next hzero =>
        have hpos : 0 < word.toNat % powTwo 52 := Nat.pos_of_ne_zero (mt hfraction.mpr hzero)
        refine Option.some.inj h ▸ hasValue_finite
          ⟨hpos, hlt.trans (by norm_num), le_rfl, Or.inl rfl⟩ (toNat_unpackMantissa word) ?_
        rw [hnormal]
        rfl
    · next hnormal =>
      rw [if_neg hnormal] at h
      generalize word.toNat / powTwo 52 % powTwo 11 = biased at hnormal h
      have hpower : powTwo 52 = 2 ^ 52 := rfl
      have hpos : 0 < powTwo 52 := by decide
      have hshort : powTwo 52 + word.toNat % powTwo 52 < 2 ^ 53 := by omega
      have hlow : (-1074 : Int) ≤ biased - 1075 := by omega
      have hcanonical : IsCanonical ⟨powTwo 52 + word.toNat % powTwo 52, (biased : Int) - 1075⟩ :=
        ⟨Nat.add_pos_left hpos _, hshort, hlow, Or.inr (Nat.le_add_right _ _)⟩
      exact Option.some.inj h ▸ hasValue_finite hcanonical (toNat_append_unpackMantissa word) rfl

end Fields

/-- Doubles are ordered like their values. -/
theorem HasValue.lt_of_place_lt {x y : UnpackedFloat} {p q : Extended} (hx : HasValue x p)
    (hy : HasValue y q) (h : place x < place y) : p < q := by
  cases hx with
  | bottom =>
    cases hy with
    | bottom => exact absurd h (lt_irrefl _)
    | negative | zero | positive | top => exact WithBot.bot_lt_coe _
  | negative first hfirst =>
    have hpos := toRat_pos hfirst
    cases hy with
    | bottom => simp [place, Prod.Lex.toLex_lt_toLex] at h
    | negative second hsecond =>
      refine Extended.coe_lt_coe.mpr (neg_lt_neg (toRat_lt_of_lex hsecond hfirst ?_))
      simp only [place, Prod.Lex.toLex_lt_toLex] at h ⊢
      omega
    | zero sign => exact Extended.coe_lt_coe.mpr (by linarith)
    | positive second hsecond =>
      have hpos' := toRat_pos hsecond
      exact Extended.coe_lt_coe.mpr (by linarith)
    | top => exact Extended.coe_lt_top _
  | zero sign =>
    cases hy with
    | bottom => simp [place, Prod.Lex.toLex_lt_toLex] at h
    | negative second hsecond => simp [place, Prod.Lex.toLex_lt_toLex] at h
    | zero sign' => exact absurd h (lt_irrefl _)
    | positive second hsecond => exact Extended.coe_lt_coe.mpr (toRat_pos hsecond)
    | top => exact Extended.coe_lt_top _
  | positive first hfirst =>
    cases hy with
    | bottom => simp [place, Prod.Lex.toLex_lt_toLex] at h
    | negative second hsecond => simp [place, Prod.Lex.toLex_lt_toLex] at h
    | zero sign' => simp [place, Prod.Lex.toLex_lt_toLex] at h
    | positive second hsecond =>
      refine Extended.coe_lt_coe.mpr (toRat_lt_of_lex hfirst hsecond ?_)
      simp only [place, Prod.Lex.toLex_lt_toLex] at h ⊢
      omega
    | top => exact Extended.coe_lt_top _
  | top =>
    cases hy with
    | bottom => simp [place, Prod.Lex.toLex_lt_toLex] at h
    | negative second hsecond => simp [place, Prod.Lex.toLex_lt_toLex] at h
    | zero sign => simp [place, Prod.Lex.toLex_lt_toLex] at h
    | positive second hsecond => simp [place, Prod.Lex.toLex_lt_toLex] at h
    | top => exact absurd h (lt_irrefl _)

/-- Doubles at the same place have the same value. -/
theorem HasValue.eq_of_place_eq {x y : UnpackedFloat} {p q : Extended} (hx : HasValue x p)
    (hy : HasValue y q) (h : place x = place y) : p = q := by
  cases hx with
  | bottom => cases hy <;> simp_all [place]
  | negative first hfirst => cases hy <;> simp_all [place, Double.toRat_eq]
  | zero sign => cases hy <;> simp_all [place]
  | positive first hfirst => cases hy <;> simp_all [place, Double.toRat_eq]
  | top => cases hy <;> simp_all [place]

/-- A double that has a value is a number. -/
theorem HasValue.ne_notANumber {x : UnpackedFloat} {p : Extended} (h : HasValue x p) :
    x ≠ .notANumber := by
  cases h <;> simp

/-- Doubles are compared like their values. -/
theorem lt_iff_value_lt {x y : Float} {p q : Extended} (hx : (Binary.ofFloat x).value? = some p)
    (hy : (Binary.ofFloat y).value? = some q) : x < y ↔ p < q := by
  have hp : HasValue x.toModel.unpack p := hasValue_unpack x.toModel.toBits.toBitVec hx
  have hq : HasValue y.toModel.unpack q := hasValue_unpack y.toModel.toBits.toBitVec hy
  have hnumbers := And.intro hp.ne_notANumber hq.ne_notANumber
  rw [lt_iff_le_not_le, le_iff_place, le_iff_place]
  simp only [hnumbers, ne_eq, not_false_eq_true, and_self, true_and, not_le]
  constructor
  · exact fun h => hp.lt_of_place_lt hq h.2
  · intro h
    have hlt : place x.toModel.unpack < place y.toModel.unpack := by
      rcases lt_trichotomy (place x.toModel.unpack) (place y.toModel.unpack) with hlt | heq | hgt
      · exact hlt
      · exact absurd (hp.eq_of_place_eq hq heq) h.ne
      · exact absurd (hq.lt_of_place_lt hp hgt) h.asymm
    exact ⟨hlt.le, hlt⟩

/-- Doubles are equal exactly if their values are. -/
theorem beq_iff_value_eq {x y : Float} {p q : Extended} (hx : (Binary.ofFloat x).value? = some p)
    (hy : (Binary.ofFloat y).value? = some q) : (x == y) = true ↔ p = q := by
  have hp : HasValue x.toModel.unpack p := hasValue_unpack x.toModel.toBits.toBitVec hx
  have hq : HasValue y.toModel.unpack q := hasValue_unpack y.toModel.toBits.toBitVec hy
  have hnumbers := And.intro hp.ne_notANumber hq.ne_notANumber
  rw [beq_iff_le_le, le_iff_place, le_iff_place]
  simp only [hnumbers, ne_eq, not_false_eq_true, and_self, true_and, ← le_antisymm_iff]
  refine ⟨hp.eq_of_place_eq hq, fun heq => ?_⟩
  rcases lt_trichotomy (place x.toModel.unpack) (place y.toModel.unpack) with hlt | hsame | hgt
  · exact absurd heq (hp.lt_of_place_lt hq hlt).ne
  · exact hsame
  · exact absurd heq (hq.lt_of_place_lt hp hgt).ne'

end Double

namespace Number

/-- A number has an exact value or is infinite. -/
theorem exactValue?_cases {n : Number} {p : Extended} (h : n.value? = some p) :
    (∃ r : Rat, n.exactValue? = some r ∧ p = (r : Extended)) ∨
      n.exactValue? = none ∧ (p = ⊥ ∨ p = ⊤) ∧ (Binary.ofFloat n.toFloat).value? = some p := by
  cases n with
  | int n => exact Or.inl ⟨n, rfl, (Option.some.inj h).symm⟩
  | flag b => exact Or.inl ⟨_, rfl, (Option.some.inj h).symm⟩
  | nan mark => cases h
  | float x =>
    rw [value?] at h
    rcases hx : Binary.ofFloat x with - | negative | ⟨negative, magnitude⟩
    · rw [hx] at h
      cases h
    · refine Or.inr ⟨by simp [exactValue?, hx], ?_, h⟩
      rw [hx] at h
      rw [← Option.some.inj h]
      cases negative <;> simp
    · refine Or.inl ⟨magnitude.signed negative, by simp [exactValue?, hx, ratOfFloat, Dyadic.signed], ?_⟩
      rw [hx] at h
      exact (Option.some.inj h).symm

/-- An exact comparison agrees with a relation of the values, if it does so for rationals and for
doubles, and if no rational stands closer to an infinity than another one. -/
theorem compareWith_eq {onRat : Rat → Rat → Bool} {onFloat : Float → Float → Bool}
    {R : Extended → Extended → Prop} (hrat : ∀ r t : Rat, onRat r t = true ↔ R r t)
    (hfloat : ∀ {x y p q}, (Binary.ofFloat x).value? = some p → (Binary.ofFloat y).value? = some q →
      (onFloat x y = true ↔ R p q))
    (hleft : ∀ (r : Rat) (q : Extended), q = ⊥ ∨ q = ⊤ → (R (0 : Rat) q ↔ R r q))
    (hright : ∀ (r : Rat) (p : Extended), p = ⊥ ∨ p = ⊤ → (R p (0 : Rat) ↔ R p r))
    {m n : Number} {p q : Extended} (hm : m.value? = some p) (hn : n.value? = some q) :
    compareWith onRat onFloat m n = true ↔ R p q := by
  have hzero : (Binary.ofFloat 0.0).value? = some ((0 : Rat) : Extended) := by
    have hparts : Binary.ofFloat 0.0 = .finite false ⟨0, -1074⟩ := by decide +kernel
    rw [hparts, Binary.value?, Double.signed_zero]
  rw [compareWith.eq_def]
  split
  · exact hfloat hm hn
  · rcases exactValue?_cases hm with ⟨r, hr, rfl⟩ | ⟨hr, hp, hx⟩
    · rcases exactValue?_cases hn with ⟨t, ht, rfl⟩ | ⟨ht, hq, hy⟩
      · simp only [hr, ht]
        exact hrat r t
      · simp only [hr, ht]
        exact (hfloat hzero hy).trans (hleft r q hq)
    · rcases exactValue?_cases hn with ⟨t, ht, rfl⟩ | ⟨ht, hq, hy⟩
      · simp only [hr, ht]
        exact (hfloat hx hzero).trans (hright t p hp)
      · simp only [hr, ht]
        exact hfloat hx hy

/-- Numbers of all forms are compared like their values. -/
theorem lt_eq {m n : Number} {p q : Extended} (hm : m.value? = some p) (hn : n.value? = some q) :
    m.lt n = decide (p < q) := by
  rw [Bool.eq_iff_iff, decide_eq_true_eq]
  refine compareWith_eq (R := (· < ·)) (fun r t => ?_) (fun hx hy => ?_) (fun r q hq => ?_)
    (fun r p hp => ?_) hm hn
  · exact decide_eq_true_iff.trans Extended.coe_lt_coe.symm
  · exact decide_eq_true_iff.trans (Double.lt_iff_value_lt hx hy)
  · rcases hq with rfl | rfl
    · exact iff_of_false not_lt_bot not_lt_bot
    · exact iff_of_true (Extended.coe_lt_top _) (Extended.coe_lt_top _)
  · rcases hp with rfl | rfl
    · exact iff_of_true (WithBot.bot_lt_coe _) (WithBot.bot_lt_coe _)
    · exact iff_of_false not_top_lt not_top_lt

/-- Numbers of all forms are equal exactly if their values are. -/
theorem eq_iff {m n : Number} {p q : Extended} (hm : m.value? = some p) (hn : n.value? = some q) :
    m.eq n = true ↔ p = q := by
  refine compareWith_eq (R := (· = ·)) (fun r t => ?_) (fun hx hy => ?_) (fun r q hq => ?_)
    (fun r p hp => ?_) hm hn
  · exact decide_eq_true_iff.trans Extended.coe_inj.symm
  · exact Double.beq_iff_value_eq hx hy
  · rcases hq with rfl | rfl
    · exact iff_of_false (Extended.coe_ne_bot _) (Extended.coe_ne_bot _)
    · exact iff_of_false (Extended.coe_lt_top _).ne (Extended.coe_lt_top _).ne
  · rcases hp with rfl | rfl
    · exact iff_of_false (Extended.coe_ne_bot _).symm (Extended.coe_ne_bot _).symm
    · exact iff_of_false (Extended.coe_lt_top _).ne' (Extended.coe_lt_top _).ne'

end Number

/-- Quantities of which some have values, by which they are compared. -/
class Evaluable (α : Type) [Quantity α] where
  value? : α → Option Extended
  lt?_eq : ∀ {a b : α} {p q : Extended}, value? a = some p → value? b = some q →
    Quantity.lt? a b = .ok (decide (p < q))

/-- Every rational has a value. -/
instance : Evaluable Rat where
  value? a := some (a : Extended)
  lt?_eq := by
    rintro a b p q ⟨⟩ ⟨⟩
    exact congrArg Except.ok (decide_eq_decide.mpr Extended.coe_lt_coe.symm)

/-- The value of plain data, if it is a number other than not-a-number. -/
def Datum.value? : Datum → Option Extended
  | .number n => n.value?
  | _ => none

/-- Numbers among plain data have their values. -/
instance : Evaluable Datum where
  value? := Datum.value?
  lt?_eq := by
    intro a b p q ha hb
    cases a with
    | number m =>
      cases b with
      | number n => exact congrArg Except.ok (Number.lt_eq ha hb)
      | null | text | list | record => cases hb
    | null | text | list | record => cases ha

end PatternCovering
