import PatternCovering.Proofs.Exact

/-!
# Numbers among the quantities

Quantities promise no laws, because plain data may be anything. The numbers among them do: they can
be added, subtracted and compared without a fault, integers are compared as such, and the real
numbers are ordered, apart from not-a-number, which is not even at most itself. Nothing is said about
what a sum is, so that the numbers may be rounded, infinite or not-a-number. All rationals are
numbers.
-/

namespace PatternCovering

/-- Quantities with numbers among them. A number may be given in any form; a sum or a difference with
at least one real number is a real number. -/
class Numeric (α : Type) [Quantity α] where
  IsNumber : α → Prop
  IsReal : α → Prop
  isNumber : ∀ {a : α}, IsReal a → IsNumber a
  zero : IsReal Quantity.zero
  ofInt_zero : IsNumber (Quantity.ofInt 0)
  isReal : ∀ {a b : α}, Quantity.real? a = .ok b → IsReal b
  add? : ∀ {a b : α}, IsNumber a → IsNumber b →
    ∃ sum, Quantity.add? a b = .ok sum ∧ (IsReal a ∨ IsReal b → IsReal sum)
  sub? : ∀ {a b : α}, IsNumber a → IsNumber b →
    ∃ difference, Quantity.sub? a b = .ok difference ∧ (IsReal a ∨ IsReal b → IsReal difference)
  lt? : ∀ {a b : α}, IsNumber a → IsNumber b → ∃ answer, Quantity.lt? a b = .ok answer
  le? : ∀ {a b : α}, IsNumber a → IsNumber b → ∃ answer, Quantity.le? a b = .ok answer
  lt?_ofInt : ∀ m n : Int,
    Quantity.lt? (Quantity.ofInt m : α) (Quantity.ofInt n) = .ok (decide (m < n))
  le?_ofInt : ∀ m n : Int,
    Quantity.le? (Quantity.ofInt m : α) (Quantity.ofInt n) = .ok (decide (m ≤ n))
  le_trans : ∀ {a b c : α}, IsReal a → IsReal b → IsReal c → Quantity.le a b = true →
    Quantity.le b c = true → Quantity.le a c = true
  le_total : ∀ {a b : α}, IsReal a → IsReal b → Quantity.le a a = true → Quantity.le b b = true →
    Quantity.le a b = true ∨ Quantity.le b a = true
  lt_eq : ∀ {a b : α}, IsReal a → IsReal b →
    Quantity.lt a b = (Quantity.le a b && !Quantity.le b a)
  eq_eq : ∀ {a b : α}, IsReal a → IsReal b →
    Quantity.eq a b = (Quantity.le a b && Quantity.le b a)

/-- As many duals are read as there are items. -/
theorem length_of_readDuals {α : Type} [Quantity α] {numItems : Int} {given duals : List α}
    (h : readDuals numItems given = .ok duals) : (duals.length : Int) = numItems := by
  rw [readDuals] at h
  split at h
  · next hlength =>
    rw [length_of_mapM_eq_ok h]
    simpa [Position.eq, Position.ofNat, Position.ofInt] using hlength
  · cases h

namespace Numeric

variable {α : Type} [Quantity α] [Numeric α]

/-- Whether a real number can be multiplied by each of the counts up to a greatest one. -/
def CountsUpTo (α : Type) [Quantity α] [Numeric α] (most : Nat) : Prop :=
  ∀ (a : α) (count : Nat), IsReal a → count ≤ most →
    ∃ product, Quantity.mul? a (Quantity.ofInt count) = .ok product ∧ IsReal product

/-- Real numbers are added up from left to right. -/
theorem foldlM_add?_ok {amounts : List α} (hamounts : ∀ amount ∈ amounts, IsNumber amount) {first : α}
    (hfirst : IsReal first) :
    ∃ sum, amounts.foldlM Quantity.add? first = .ok sum ∧ IsReal sum := by
  induction amounts generalizing first with
  | nil => exact ⟨first, rfl, hfirst⟩
  | cons amount rest ih =>
    obtain ⟨next, hnext, hreal⟩ := add? (isNumber hfirst) (hamounts amount List.mem_cons_self)
    obtain ⟨sum, hsum, hlast⟩ :=
      ih (fun other hother => hamounts other (List.mem_cons_of_mem _ hother)) (hreal (Or.inl hfirst))
    exact ⟨sum, by rw [List.foldlM_cons, hnext]; exact hsum, hlast⟩

/-- The value of a pattern under real duals is a number, or fails as a product of a dual and a count
does. -/
theorem dot?_cases {R : Fault → Prop} {duals : List α} (hduals : ∀ dual ∈ duals, IsReal dual)
    {counts : List Nat}
    (hproducts : ∀ dual ∈ duals, ∀ count ∈ counts,
      (∃ product, Quantity.mul? dual (Quantity.ofInt (count : Int)) = .ok product ∧ IsReal product) ∨
        ∃ fault, R fault ∧ Quantity.mul? dual (Quantity.ofInt (count : Int)) = .error fault) :
    (∃ value, Quantity.dot? duals (counts.map fun count : Nat => Quantity.ofInt (count : Int)) =
      .ok value ∧ IsNumber value) ∨
      ∃ fault, R fault ∧
        Quantity.dot? duals (counts.map fun count : Nat => Quantity.ofInt (count : Int)) =
          .error fault := by
  rw [Quantity.dot?]
  generalize hfirst : (Quantity.ofInt 0 : α) = first
  have hnumber : IsNumber first := hfirst ▸ ofInt_zero
  clear hfirst
  induction duals generalizing counts first with
  | nil => exact Or.inl ⟨first, rfl, hnumber⟩
  | cons dual duals ih =>
    cases counts with
    | nil => exact Or.inl ⟨first, rfl, hnumber⟩
    | cons count counts =>
      obtain ⟨-, hrest⟩ := List.forall_mem_cons.mp hduals
      rw [List.map_cons, List.zip_cons_cons, List.foldlM_cons]
      rcases hproducts dual List.mem_cons_self count List.mem_cons_self with
        ⟨product, hproduct, hreal⟩ | ⟨fault, hrefused, hproduct⟩
      · obtain ⟨next, hnext, hlast⟩ := add? hnumber (isNumber hreal)
        simp only [hproduct, hnext, bind, Except.bind]
        exact ih hrest (fun other hother copies hcopies => hproducts other
          (List.mem_cons_of_mem _ hother) copies (List.mem_cons_of_mem _ hcopies)) next
          (isNumber (hlast (Or.inr hreal)))
      · simp only [hproduct, bind, Except.bind]
        exact Or.inr ⟨fault, hrefused, rfl⟩

/-- The reduced cost of a column under real duals is a number, or fails as a product of a dual and a
count does. -/
theorem reducedCostUnder_cases {R : Fault → Prop} {column : Column α} {duals : List α}
    (hlength : duals.length = column.counts.length) (hduals : ∀ dual ∈ duals, IsReal dual)
    (hproducts : ∀ dual ∈ duals, ∀ count ∈ column.counts,
      (∃ product, Quantity.mul? dual (Quantity.ofInt (count : Int)) = .ok product ∧ IsReal product) ∨
        ∃ fault, R fault ∧ Quantity.mul? dual (Quantity.ofInt (count : Int)) = .error fault)
    (hcost : IsNumber column.cost) :
    (∃ reducedCost, column.reducedCostUnder duals = .ok reducedCost) ∨
      ∃ fault, R fault ∧ column.reducedCostUnder duals = .error fault := by
  rw [Column.reducedCostUnder, Column.dualValue, if_neg (by simpa [Column.numItems] using hlength),
    Column.amounts]
  rcases dot?_cases hduals hproducts with ⟨value, hvalue, hnumber⟩ | ⟨fault, hrefused, hvalue⟩
  · obtain ⟨difference, hdifference, -⟩ := sub? hcost hnumber
    exact Or.inl ⟨difference, by rw [hvalue]; exact hdifference⟩
  · exact Or.inr ⟨fault, hrefused, by rw [hvalue]; rfl⟩

/-- The reduced cost of a column under real duals is a number, as long as the counts are in range. -/
theorem reducedCostUnder_ok {most : Nat} (hcounts : CountsUpTo α most) {column : Column α}
    {duals : List α} (hlength : duals.length = column.counts.length)
    (hduals : ∀ dual ∈ duals, IsReal dual) (hmost : ∀ count ∈ column.counts, count ≤ most)
    (hcost : IsNumber column.cost) :
    ∃ reducedCost, column.reducedCostUnder duals = .ok reducedCost := by
  rcases reducedCostUnder_cases (R := fun _ => False) hlength hduals
    (fun dual hdual count hcount => Or.inl (hcounts dual count (hduals dual hdual)
      (hmost count hcount))) hcost with hsome | ⟨_, hfalse, -⟩
  · exact hsome
  · exact hfalse.elim

/-- Duals that are read are real numbers. -/
theorem isReal_of_readDuals {numItems : Int} {given duals : List α}
    (h : readDuals numItems given = .ok duals) : ∀ dual ∈ duals, IsReal dual := by
  rw [readDuals] at h
  split at h
  · intro dual hdual
    obtain ⟨i, hi, rfl⟩ := List.mem_iff_getElem.mp hdual
    have hlt : i < given.length := length_of_mapM_eq_ok h ▸ hi
    obtain ⟨value, hvalue, hread⟩ := getElem?_of_mapM_eq_ok h (List.getElem?_eq_getElem hlt)
    rw [List.getElem?_eq_getElem hi, Option.some.injEq] at hvalue
    exact hvalue ▸ isReal hread
  · cases h

/-- Of two real numbers that are not not-a-number, one that is not above the other is at most as
large. -/
theorem le_of_lt_eq_false {a b : α} (ha : IsReal a) (hb : IsReal b) (hself : Quantity.le a a = true)
    (hother : Quantity.le b b = true) (h : Quantity.lt b a = false) : Quantity.le a b = true := by
  rw [lt_eq hb ha] at h
  rcases le_total ha hb hself hother with hle | hge
  · exact hle
  · simpa [hge] using h

end Numeric

/-- Quantities of which a sum that begins with a real number is one, whatever is added. -/
class RealSums (α : Type) [Quantity α] [Numeric α] : Prop where
  isReal_add : ∀ {a b sum : α}, Numeric.IsReal a → Quantity.add? a b = .ok sum → Numeric.IsReal sum

/-- Every rational is a number. -/
instance : Numeric Rat where
  IsNumber _ := True
  IsReal _ := True
  isNumber := id
  zero := trivial
  ofInt_zero := trivial
  isReal _ := trivial
  add? _ _ := ⟨_, rfl, fun _ => trivial⟩
  sub? _ _ := ⟨_, rfl, fun _ => trivial⟩
  lt? _ _ := ⟨_, rfl⟩
  le? _ _ := ⟨_, rfl⟩
  lt?_ofInt m n := by simp
  le?_ofInt m n := by simp
  le_trans _ _ _ hab hbc := by
    simp only [Quantity.le_rat, decide_eq_true_eq] at hab hbc ⊢
    exact hab.trans hbc
  le_total {a b} _ _ _ _ := by simpa using Rat.le_total
  lt_eq {a b} _ _ := by
    by_cases h : a < b
    · simp [h, le_of_lt h, not_le.mpr h]
    · simp [h, not_lt.mp h]
  eq_eq {a b} _ _ := by simp [le_antisymm_iff]

instance : RealSums Rat := ⟨fun _ _ => trivial⟩

end PatternCovering
