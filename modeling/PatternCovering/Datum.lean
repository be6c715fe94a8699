import PatternCovering.Number
import PatternCovering.Text.Quoted

/-!
# Plain data

Requests, configuration files and free attributes carry plain data: nothing, a number, a text, a
list, or a record of named entries in the order in which they were given.
-/

namespace PatternCovering

/-- A piece of plain data. -/
inductive Datum where
  | null
  | number (n : Number)
  | text (s : String)
  | list (elements : List Datum)
  | record (fields : List (String × Datum))

namespace Datum

instance : Inhabited Datum := ⟨null⟩

/-- An integer as data. -/
def int (n : Int) : Datum := number (.int n)

/-- A double as data. -/
def float (x : Float) : Datum := number (.float x)

/-- A truth value as data. -/
def flag (b : Bool) : Datum := number (.flag b)

/-- The real number zero as data. -/
def realZero : Datum := float 0.0

/-- Parts between an opening and a closing bracket, with commas between them. -/
def bracketed (opening closing : String) (parts : List String) : String :=
  opening ++ String.intercalate ", " parts ++ closing

mutual

/-- The data as it is shown in messages, texts in quotation marks. -/
def shown : Datum → String
  | null => "None"
  | number n => n.text
  | text s => Text.quoted s
  | list elements => bracketed "[" "]" (shownAll elements)
  | record fields => bracketed "\x7b" "\x7d" (shownFields fields)

/-- The elements of a list as they are shown. -/
def shownAll : List Datum → List String
  | [] => []
  | element :: rest => shown element :: shownAll rest

/-- The entries of a record as they are shown. -/
def shownFields : List (String × Datum) → List String
  | [] => []
  | (name, value) :: rest => (Text.quoted name ++ ": " ++ shown value) :: shownFields rest

end

/-- The data as plain text: a text is itself, all else as it is shown. -/
def plain : Datum → String
  | text s => s
  | other => other.shown

mutual

/-- Whether two pieces of data are the same key: they agree in every part, numbers by their values,
where only the very same not-a-number agrees with itself. -/
def same : Datum → Datum → Bool
  | null, null => true
  | number m, number n => m.same n
  | text s, text t => s == t
  | list xs, list ys => sameAll xs ys
  | record xs, record ys => sameFields xs ys
  | _, _ => false

/-- Whether two lists agree in every element. -/
def sameAll : List Datum → List Datum → Bool
  | [], [] => true
  | x :: xs, y :: ys => same x y && sameAll xs ys
  | _, _ => false

/-- Whether two records agree in every entry. -/
def sameFields : List (String × Datum) → List (String × Datum) → Bool
  | [], [] => true
  | (name, x) :: xs, (other, y) :: ys => name == other && same x y && sameFields xs ys
  | _, _ => false

end

/-- Whether two pieces of data are equal: as keys, but not-a-number is not even equal to itself. -/
def eq : Datum → Datum → Bool
  | number m, number n => m.eq n
  | left, right => left.same right

/-- Whether the data can be a key: lists and records cannot. -/
def isKey : Datum → Bool
  | list _ | record _ => false
  | _ => true

/-- Whether the data counts as true: all but nothing, zero and what is empty. -/
def truthy : Datum → Bool
  | null => false
  | number n => !(n.eq (.int 0))
  | text s => !s.isEmpty
  | list elements => !elements.isEmpty
  | record fields => !fields.isEmpty

/-- The entry of a record with the given name; nothing else has entries. -/
def field? (name : String) : Datum → Option Datum
  | record fields => fields.lookup name
  | _ => none

end Datum

end PatternCovering
