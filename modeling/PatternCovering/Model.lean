import PatternCovering.InsertionSort
import PatternCovering.Window

/-!
# Linear models

A model has variables with bounds and objective coefficients, rows with bounds on a linear
expression, and the entries of the matrix between them. Variables and rows are only appended, and
coefficients for the same entry add up. The row and the column of an entry are kept as they were
given, and numbers of the same value are the same place.
-/

namespace PatternCovering

/-- A variable; a missing bound is infinite. Whether it has to be an integer is kept as it was
given. -/
structure Variable (α : Type) where
  name : Datum
  lower : Option α
  upper : Option α
  objective : α
  isInteger : Datum := .flag false

/-- A row; a missing bound is infinite. -/
structure Row (α : Type) where
  name : Datum
  lower : Option α
  upper : Option α

/-- An entry of the matrix. -/
structure Entry (α : Type) where
  row : Datum
  column : Datum
  value : α

/-- Whether an entry stands at a row and a column. -/
def Entry.isAt {α : Type} (entry : Entry α) (row column : Datum) : Bool :=
  entry.row.same row && entry.column.same column

/-- Whether an entry comes before another one in the order of rows, then columns. -/
def Entry.before {α : Type} (left right : Entry α) : Bool :=
  if left.row.same right.row then Quantity.lt left.column right.column
  else Quantity.lt left.row right.row

/-- A linear model. -/
structure Model (α : Type) where
  sense : Sense := .minimize
  vars : List (Variable α) := []
  rows : List (Row α) := []
  entries : List (Entry α) := []

namespace Model

variable {α : Type} [Quantity α]

/-- Adds an amount to the entry at a row and a column, which is zero if there is none yet. -/
def accumulate (row column : Datum) (amount : α) : List (Entry α) → List (Entry α)
  | [] => [⟨row, column, Quantity.add Quantity.zero amount⟩]
  | entry :: rest =>
    if entry.isAt row column then
      { entry with value := Quantity.add entry.value amount } :: rest
    else entry :: accumulate row column amount rest

/-- Sets the entry at a row and a column. -/
def replace (row column : Datum) (value : α) : List (Entry α) → List (Entry α)
  | [] => [⟨row, column, value⟩]
  | entry :: rest =>
    if entry.isAt row column then { entry with value } :: rest
    else entry :: replace row column value rest

/-- The value at a row and a column among some entries. -/
def valueAt? (row column : Datum) (entries : List (Entry α)) : Option α :=
  (entries.find? (·.isAt row column)).map (·.value)

/-- The entry at a row and a column, if a coefficient was ever given for it. -/
def entry? (model : Model α) (row column : Datum) : Option α := valueAt? row column model.entries

/-- Appends a variable. -/
def addVariable (model : Model α) (added : Variable α) : Model α :=
  { model with vars := model.vars ++ [added] }

/-- Adds a coefficient to an entry. -/
def addCoefficient (model : Model α) (row column : Datum) (amount : α) : Model α :=
  { model with entries := accumulate row column amount model.entries }

/-- Sets the coefficient of an entry. -/
def setCoefficient (model : Model α) (row column : Datum) (value : α) : Model α :=
  { model with entries := replace row column value model.entries }

/-- Adds the coefficients of some variables to a row. -/
def addTerms (row : Datum) (terms : List (Datum × α)) (entries : List (Entry α)) :
    List (Entry α) :=
  terms.foldl (fun entries (column, amount) => accumulate row column amount entries) entries

/-- Appends a row with the coefficients of some variables. -/
def addRow (model : Model α) (row : Row α) (terms : List (Datum × α)) : Model α :=
  { model with
    rows := model.rows ++ [row]
    entries := addTerms (.int model.rows.length) terms model.entries }

/-- Makes a variable integer or continuous. -/
def setInteger (model : Model α) (column : Nat) (isInteger : Datum) : Model α :=
  { model with
    vars := model.vars.modify column fun known => { known with isInteger } }

/-- The entries by rows and, within a row, by columns. -/
def sortedEntries (model : Model α) : List (Entry α) :=
  InsertionSort.sort Entry.before model.entries

end Model

end PatternCovering
