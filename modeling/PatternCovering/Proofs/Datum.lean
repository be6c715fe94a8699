import PatternCovering.Datum.Arithmetic
import PatternCovering.Table
import Mathlib.Data.List.Basic

/-!
# Plain data as keys

Integers and texts are the same key exactly if they are equal, and equal numbers are the same key. A
table finds what all entries under a key have, and a key that it does not have comes to its end.
-/

namespace PatternCovering

/-- Numbers of the same value are the same key. -/
theorem Number.same_of_eq {m n : Number} (h : m.eq n = true) : m.same n = true := by
  have hnan : (notANumber == notANumber) = false := by decide +kernel
  rw [Number.same.eq_def]
  split
  · exact absurd (hnan.symm.trans h) (by decide)
  · exact h

namespace Datum

/-- Equal data is the same key. -/
theorem same_of_eq {left right : Datum} (h : left.eq right = true) : left.same right = true := by
  rw [Datum.eq.eq_def] at h
  split at h
  · rw [Datum.same]
    exact Number.same_of_eq h
  · exact h

/-- A text is the same key as itself and nothing else. -/
theorem same_text {text : String} {key : Datum} :
    (Datum.text text).same key = true ↔ Datum.text text = key := by
  cases key <;> simp [Datum.same]

/-- Integers are the same key exactly if they are equal. -/
@[simp]
theorem same_int (m n : Int) : (Datum.int m).same (.int n) = decide (m = n) := by
  simp [Datum.int, Datum.same, Number.same, Number.eq, Number.compareWith, Number.exactValue?]

/-- Integers are compared. -/
@[simp]
theorem lt_int (m n : Int) : (Datum.int m).lt (.int n) = .ok (decide (m < n)) :=
  congrArg Except.ok (decide_eq_decide.mpr Rat.intCast_lt_intCast)

/-- Integers are compared. -/
@[simp]
theorem le_int (m n : Int) : (Datum.int m).le (.int n) = .ok (decide (m ≤ n)) :=
  congrArg Except.ok (decide_eq_decide.mpr Rat.intCast_le_intCast)

end Datum

namespace Table

variable {γ : Type} {key : Datum} {table : Table γ}

/-- Nothing is found under a key that no entry has. -/
theorem find?_eq_none (h : ∀ entry ∈ table, entry.1.same key = false) : find? key table = none := by
  induction table with
  | nil => rfl
  | cons entry rest ih =>
    obtain ⟨hentry, hrest⟩ := List.forall_mem_cons.mp h
    rw [find?, hentry, if_neg Bool.false_ne_true, ih hrest]

/-- Under a key is found what all entries with that key have. -/
theorem find?_eq_some {value : γ} (hmem : ∃ entry ∈ table, entry.1.same key = true)
    (h : ∀ entry ∈ table, entry.1.same key = true → entry.2 = value) :
    find? key table = some value := by
  induction table with
  | nil =>
    obtain ⟨_, hmem, -⟩ := hmem
    cases hmem
  | cons entry rest ih =>
    obtain ⟨hentry, hrest⟩ := List.forall_mem_cons.mp h
    rw [find?]
    split
    · next hsame => rw [hentry hsame]
    · next hother =>
      obtain ⟨found, hfound, hsame⟩ := hmem
      rcases List.mem_cons.mp hfound with rfl | hfound
      · exact absurd hsame hother
      · exact ih ⟨found, hfound, hsame⟩ hrest

/-- Where keys are the same only if they are equal, and no two entries have the same one, a value is
found under a key exactly if there is an entry of both. -/
theorem find?_eq_some_iff {value : γ}
    (hsame : ∀ entry ∈ table, entry.1.same key = true ↔ entry.1 = key)
    (hnodup : (table.map (·.1)).Nodup) : find? key table = some value ↔ (key, value) ∈ table := by
  induction table with
  | nil => simp [find?]
  | cons entry rest ih =>
    obtain ⟨known, kept⟩ := entry
    obtain ⟨hentry, hrest⟩ := List.forall_mem_cons.mp hsame
    obtain ⟨hnew, hnodup⟩ := List.nodup_cons.mp hnodup
    rw [find?, List.mem_cons, Prod.mk.injEq]
    split
    · next hfound =>
      obtain rfl := hentry.mp hfound
      have hother : (known, value) ∉ rest := fun hmem =>
        hnew (List.mem_map.mpr ⟨_, hmem, rfl⟩)
      simp only [Option.some.injEq, true_and, hother, or_false]
      exact eq_comm
    · next hother =>
      have hne : key ≠ known := fun heq => hother (hentry.mpr heq.symm)
      simp only [ih hrest hnodup, hne, false_and, false_or]

/-- A key under which nothing is found comes to the end of the table. -/
theorem set_of_find?_eq_none (h : find? key table = none) (value : γ) :
    set key value table = table ++ [(key, value)] := by
  induction table with
  | nil => rfl
  | cons entry rest ih =>
    obtain ⟨known, kept⟩ := entry
    rw [find?] at h
    split at h
    · cases h
    · next hother =>
      rw [set, if_neg hother, ih h]
      rfl

/-- Distinct keys with their places are a table of these places. -/
theorem find?_zipIdx {keys : List Datum} {place : Nat}
    (hsame : ∀ known ∈ keys, known.same key = true ↔ known = key) (hnodup : keys.Nodup) :
    find? key keys.zipIdx = some place ↔ keys[place]? = some key := by
  have hkeys : keys.zipIdx.map (·.1) = keys := List.zipIdx_map_fst _ _
  rw [find?_eq_some_iff (fun entry hentry => hsame entry.1 ?_) (hkeys.symm ▸ hnodup),
    List.mem_zipIdx_iff_getElem?]
  exact hkeys ▸ List.mem_map_of_mem hentry

/-- A new key comes to the end of the places of some keys, with the next place. -/
theorem set_zipIdx {keys : List Datum} (h : find? key keys.zipIdx = none) :
    set key keys.length keys.zipIdx = (keys ++ [key]).zipIdx := by
  rw [set_of_find?_eq_none h, List.zipIdx_append]
  simp

end Table

end PatternCovering
