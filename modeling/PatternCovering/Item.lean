import PatternCovering.Number.Quotient

/-!
# Items

An item is something to be covered: a piece of a given width that is wanted a number of times. Its
position in the list of items is its index in every pattern and every vector of duals. The name of
an item is kept as it was given.
-/

namespace PatternCovering

/-- A piece of positive width that is wanted `demand` times. -/
structure Item where
  width : Nat
  demand : Nat
  name : Datum
  width_pos : 0 < width

namespace Item

/-- An item from plain data. Both numbers must be whole; then the width must be positive and the
demand not negative. -/
def read (width demand name : Datum) : Except Fault Item := do
  match ← width.whole? with
  | none => .error (.widthNotWhole width)
  | some w =>
    match ← demand.whole? with
    | none => .error (.demandNotWhole demand)
    | some d =>
      if h : 0 < w.toNat then
        if d < 0 then .error (.demandNegative demand)
        else .ok ⟨w.toNat, d.toNat, name, h⟩
      else .error (.widthNotPositive width)

/-- How many copies of the item fit into a capacity. -/
def maxCopies (item : Item) (capacity : Datum) : Except Fault Datum :=
  capacity.floorDiv item.width

/-- The item as it is shown, with its name if it has one. -/
def shown (item : Item) : String :=
  let label := if item.name.truthy then s!"'{item.name.plain}', " else ""
  s!"Item({label}width={item.width}, demand={item.demand})"

/-- The name of the item of an index: the one at that position of the names if there are any, else
one made of the index. -/
def nameAt (names : Option Datum) (index : Nat) : Except Fault Datum :=
  match names with
  | none => .ok (.text s!"item_{index}")
  | some given => given.entryAt (.int index)

/-- The items from the one of index `first` on, each with its name looked up before it is read. -/
def readFrom (names : Option Datum) (first : Nat) : List (Datum × Datum) → Except Fault (List Item)
  | [] => .ok []
  | (width, demand) :: rest => do
    let name ← nameAt names first
    let item ← read width demand name
    return item :: (← readFrom names (first + 1) rest)

/-- Refuses names that are not as many as the items. -/
def checkNames (names : Option Datum) (count : Nat) : Except Fault Unit := do
  match names with
  | none => return
  | some given => if (← given.elements).length ≠ count then .error .namesLengthDiffers

/-- The items from lists of widths, demands and names; without names, an item is named by its
index. -/
def readAll (widths demands : List Datum) (names : Option Datum) : Except Fault (List Item) := do
  if widths.length ≠ demands.length then
    .error (.lengthsDiffer widths.length demands.length)
  else
    checkNames names widths.length
    readFrom names 0 (widths.zip demands)

/-- The items from a record of widths, demands and, if they are given, names. -/
def readRecord (given : Datum) : Except Fault (List Item) := do
  let widths ← ((given.field? "widths").getD .null).elements
  let demands ← ((given.field? "demands").getD .null).elements
  readAll widths demands (Datum.present? (given.field? "names"))

end Item

end PatternCovering
