import PatternCovering.Position
import Mathlib.Logic.Basic

/-!
# Steps that may fail

A chain of steps succeeds exactly if each step does, which takes the chain apart step by step. A
step that never fails can be taken along a list like a plain function. Looking up a position that is
inside a list does not fail.
-/

namespace PatternCovering

/-- A step followed by another succeeds exactly if both do. -/
theorem bind_eq_ok {ε β γ : Type} {first : Except ε β} {next : β → Except ε γ} {result : γ} :
    first >>= next = .ok result ↔ ∃ value, first = .ok value ∧ next value = .ok result := by
  cases first with
  | error fault => simp [bind, Except.bind]
  | ok value => simp [bind, Except.bind]

/-- The result of a step that succeeds, changed afterwards. -/
theorem map_eq_ok {ε β γ : Type} {first : Except ε β} {change : β → γ} {result : γ} :
    first.map change = .ok result ↔ ∃ value, first = .ok value ∧ change value = result := by
  cases first with
  | error fault => simp [Except.map]
  | ok value => simp [Except.map]

/-- A step fails with the same fault if its result is changed afterwards. -/
theorem map_eq_error {ε β γ : Type} {first : Except ε β} {change : β → γ} {fault : ε} :
    first.map change = .error fault ↔ first = .error fault := by
  cases first with
  | error known => simp [Except.map]
  | ok value => simp [Except.map]

/-- The result of a step is known exactly if the step succeeds. -/
theorem toOption_eq_some {ε β : Type} {first : Except ε β} {value : β} :
    first.toOption = some value ↔ first = .ok value := by
  cases first with
  | error fault => simp [Except.toOption]
  | ok known => simp [Except.toOption]

/-- A step that succeeds on every entry of a list succeeds on the list. -/
theorem mapM_eq_ok {ε β γ : Type} {step : β → Except ε γ} (plain : β → γ) {entries : List β}
    (h : ∀ entry ∈ entries, step entry = .ok (plain entry)) :
    entries.mapM step = .ok (entries.map plain) := by
  induction entries with
  | nil => rfl
  | cons entry rest ih =>
    rw [List.mapM_cons, h entry List.mem_cons_self,
      ih fun other hother => h other (List.mem_cons_of_mem _ hother)]
    rfl

/-- A step that succeeds on every entry of an array succeeds on the array. -/
theorem mapM_array_eq_ok {ε β γ : Type} {step : β → Except ε γ} {plain : β → γ} {entries : Array β}
    (h : ∀ entry ∈ entries, step entry = .ok (plain entry)) :
    entries.mapM step = .ok (entries.map plain) := by
  obtain ⟨entries⟩ := entries
  rw [List.mapM_toArray, mapM_eq_ok plain fun entry hentry => h entry (List.mem_toArray.mpr hentry),
    List.map_toArray]
  rfl

/-- A step that succeeds on every entry of a list, each time with a result of some kind, succeeds on
the list with results of that kind. -/
theorem exists_mapM_eq_ok {ε β γ : Type} {step : β → Except ε γ} {P : γ → Prop} {entries : List β}
    (h : ∀ entry ∈ entries, ∃ value, step entry = .ok value ∧ P value) :
    ∃ results, entries.mapM step = .ok results ∧ ∀ value ∈ results, P value := by
  induction entries with
  | nil => exact ⟨[], rfl, by simp⟩
  | cons entry rest ih =>
    obtain ⟨value, hvalue, hkind⟩ := h entry List.mem_cons_self
    obtain ⟨values, hvalues, hkinds⟩ := ih fun other hother => h other (List.mem_cons_of_mem _ hother)
    refine ⟨value :: values, ?_, List.forall_mem_cons.mpr ⟨hkind, hkinds⟩⟩
    rw [List.mapM_cons, hvalue, hvalues]
    rfl

/-- A step that gives whatever another one gives does so along a list. -/
theorem mapM_eq_ok_of_imp {ε β γ : Type} {step other : β → Except ε γ} {entries : List β}
    {results : List γ}
    (h : ∀ entry ∈ entries, ∀ value, step entry = .ok value → other entry = .ok value)
    (hstep : entries.mapM step = .ok results) : entries.mapM other = .ok results := by
  induction entries generalizing results with
  | nil => exact hstep
  | cons entry rest ih =>
    rw [List.mapM_cons] at hstep ⊢
    obtain ⟨value, hvalue, hstep⟩ := bind_eq_ok.mp hstep
    obtain ⟨values, hvalues, hstep⟩ := bind_eq_ok.mp hstep
    rw [h entry List.mem_cons_self value hvalue,
      ih (fun last hlast => h last (List.mem_cons_of_mem _ hlast)) hvalues]
    exact hstep

/-- A step along a list that succeeds gives as many results as there are entries. -/
theorem length_of_mapM_eq_ok {ε β γ : Type} {step : β → Except ε γ} {entries : List β}
    {results : List γ} (h : entries.mapM step = .ok results) : results.length = entries.length := by
  induction entries generalizing results with
  | nil =>
    rw [← Except.ok.inj h]
    rfl
  | cons entry rest ih =>
    rw [List.mapM_cons] at h
    obtain ⟨value, -, h⟩ := bind_eq_ok.mp h
    obtain ⟨values, hvalues, h⟩ := bind_eq_ok.mp h
    rw [← Except.ok.inj h, List.length_cons, ih hvalues, List.length_cons]

/-- A step along a list that succeeds gives the result of each entry at the place of the entry. -/
theorem getElem?_of_mapM_eq_ok {ε β γ : Type} {step : β → Except ε γ} {entries : List β}
    {results : List γ} (h : entries.mapM step = .ok results) {i : Nat} {entry : β}
    (hentry : entries[i]? = some entry) :
    ∃ value, results[i]? = some value ∧ step entry = .ok value := by
  induction entries generalizing results i with
  | nil => simp at hentry
  | cons first rest ih =>
    rw [List.mapM_cons] at h
    obtain ⟨value, hvalue, h⟩ := bind_eq_ok.mp h
    obtain ⟨values, hvalues, h⟩ := bind_eq_ok.mp h
    rw [← Except.ok.inj h]
    cases i with
    | zero =>
      rw [List.getElem?_cons_zero, Option.some.injEq] at hentry
      exact ⟨value, rfl, hentry ▸ hvalue⟩
    | succ i => exact ih hvalues hentry

namespace Position

/-- An integer from zero on and inside a list stands for itself. -/
theorem place_eq_ok {size : Nat} {position : Int} (h : 0 ≤ position) (hlt : position.toNat < size) :
    place size position = .ok position.toNat := by
  simp [place, toInt, placeAt?, h, hlt, bind, Except.bind, pure, Except.pure]

/-- An entry of an array is found at its position. -/
theorem element_eq_ok {β : Type} {entries : Array β} {i : Nat} {entry : β}
    (h : entries[i]? = some entry) : element entries (i : Int) = .ok entry := by
  have hlt : (i : Int).toNat < entries.size := (Array.getElem?_eq_some_iff.mp h).1
  simp only [element, place_eq_ok (Int.natCast_nonneg i) hlt, bind, Except.bind, Int.toNat_natCast, h]
  rfl

end Position

end PatternCovering
