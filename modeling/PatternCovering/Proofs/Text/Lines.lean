import PatternCovering.Text.Blank
import Mathlib

/-!
# Lines put together and read again

Lines that hold no line end are read again from the text in which each of them is ended by a line
feed. A text without surrounding characters of a class loses nothing when such characters are stripped
off.
-/

namespace PatternCovering.Text

/-- Whether a text neither starts nor ends with a character of a class. -/
structure IsBare (blank : Char → Bool) (text : List Char) : Prop where
  first : ∀ c ∈ text.head?, blank c = false
  last : ∀ c ∈ text.getLast?, blank c = false

section Stripping

variable {blank : Char → Bool} {text : List Char}

/-- Nothing is dropped from a text that does not start with a character of the class. -/
theorem dropWhile_eq_self (h : ∀ c ∈ text.head?, blank c = false) : text.dropWhile blank = text := by
  cases text with
  | nil => rfl
  | cons c text => exact List.dropWhile_cons_of_neg (by simp [h c rfl])

/-- Only what stands before it is stripped off a text that does not end with a character of the
class. -/
theorem stripBy_eq_dropWhile (h : ∀ c ∈ (text.dropWhile blank).getLast?, blank c = false) :
    stripBy blank text = text.dropWhile blank := by
  rw [stripBy, dropWhile_eq_self (by rwa [List.head?_reverse]), List.reverse_reverse]

/-- Nothing is stripped off a bare text. -/
theorem IsBare.stripBy_eq (h : IsBare blank text) : stripBy blank text = text := by
  have hdrop := dropWhile_eq_self h.first
  rw [stripBy_eq_dropWhile (by rw [hdrop]; exact h.last), hdrop]

/-- A character of the class before a bare text is stripped off. -/
theorem IsBare.stripBy_cons (h : IsBare blank text) {c : Char} (hc : blank c = true) :
    stripBy blank (c :: text) = text := by
  have hdrop : (c :: text).dropWhile blank = text := by
    rw [List.dropWhile_cons_of_pos hc, dropWhile_eq_self h.first]
  rw [stripBy_eq_dropWhile (by rw [hdrop]; exact h.last), hdrop]

/-- A character of the class after a bare text is stripped off. -/
theorem IsBare.stripBy_append (h : IsBare blank text) (hne : text ≠ []) {c : Char}
    (hc : blank c = true) : stripBy blank (text ++ [c]) = text := by
  have hfirst : ∀ c' ∈ (text ++ [c]).head?, blank c' = false := by
    rw [List.head?_append_of_ne_nil _ hne]
    exact h.first
  rw [stripBy, dropWhile_eq_self hfirst, List.reverse_append, List.reverse_singleton,
    List.singleton_append, List.dropWhile_cons_of_pos hc,
    dropWhile_eq_self (by rw [List.head?_reverse]; exact h.last), List.reverse_reverse]

end Stripping

/-- A line that is ended by a line feed is the first one. -/
theorem lines_append {line : List Char} (h : ∀ c ∈ line, isLineEnd c = false) (rest : List Char) :
    lines (line ++ '\n' :: rest) = line :: lines rest := by
  induction line with
  | nil => rfl
  | cons c line ih =>
    rw [List.cons_append, lines, ih fun c' hc' => h c' (List.mem_cons_of_mem c hc'), if_neg]
    simp [h c]

/-- Lines that are ended by line feeds are read again. -/
theorem lines_flatMap {texts : List (List Char)}
    (h : ∀ line ∈ texts, ∀ c ∈ line, isLineEnd c = false) :
    lines (texts.flatMap (· ++ ['\n'])) = texts := by
  induction texts with
  | nil => rfl
  | cons line texts ih =>
    rw [List.flatMap_cons, List.append_assoc, List.singleton_append,
      lines_append (h line (by simp)), ih fun line hline => h line (by simp [hline])]

/-- Nothing is unified in a text without carriage returns. -/
theorem unifyReturns_eq_self {text : List Char} (h : '\r' ∉ text) : unifyReturns text = text := by
  induction text with
  | nil => rfl
  | cons c text ih =>
    rw [List.mem_cons, not_or] at h
    rw [unifyReturns, ih h.2]
    · exact fun rest heq => absurd heq.symm h.1
    · exact fun heq => absurd heq.symm h.1

/-- Texts with a line feed between them and after them are the texts with a line feed after each. -/
theorem toList_intercalate_append {texts : List String} (h : texts ≠ []) :
    (String.intercalate "\n" texts ++ "\n").toList =
      (texts.map String.toList).flatMap (· ++ ['\n']) := by
  rw [String.toList_append, String.toList_intercalate]
  induction texts with
  | nil => exact absurd rfl h
  | cons text texts ih =>
    cases texts with
    | nil => simp
    | cons next texts =>
      have ih := ih (by simp)
      rw [List.map_cons] at ih
      rw [List.map_cons, List.map_cons, List.intercalate_cons_cons, List.append_assoc, ih]
      rfl

end PatternCovering.Text
