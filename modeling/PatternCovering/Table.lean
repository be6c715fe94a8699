import PatternCovering.Fault

/-!
# Tables

A table holds values under keys of plain data, in the order in which the keys first came. A value
that is set under a known key takes the place of the old one.
-/

namespace PatternCovering

/-- Refuses data that cannot be a key. -/
def Datum.requireKey (given : Datum) : Except Fault Unit :=
  if given.isKey then .ok () else .error .wrongType

/-- Values under keys, in the order in which the keys first came. -/
abbrev Table (γ : Type) := List (Datum × γ)

namespace Table

variable {γ : Type}

/-- The value under a key. -/
def find? (key : Datum) : Table γ → Option γ
  | [] => none
  | (known, value) :: rest => if known.same key then some value else find? key rest

/-- Sets the value under a key: at its place if the key is known, else at the end. -/
def set (key : Datum) (value : γ) : Table γ → Table γ
  | [] => [(key, value)]
  | (known, old) :: rest =>
    if known.same key then (known, value) :: rest else (known, old) :: set key value rest

/-- The value under data that has to be a key. -/
def get (table : Table γ) (key : Datum) : Except Fault (Option γ) := do
  key.requireKey
  return find? key table

/-- Sets the value under data that has to be a key. -/
def insert (table : Table γ) (key : Datum) (value : γ) : Except Fault (Table γ) := do
  key.requireKey
  return set key value table

end Table

end PatternCovering
