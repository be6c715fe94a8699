import PatternCovering.Item
import PatternCovering.Oracle

/-!
# Cutting stock

Items have to be cut from rolls of one width. A roll is cut by a pattern of total width at most that
of the roll, and as few rolls as possible are to be used. The pattern of one roll is a knapsack; the
same patterns are the paths of a chain of stages, one for each item, where an item is cut by a loop
at its stage.
-/

namespace PatternCovering

/-- Items to be cut from rolls of one width. -/
structure CuttingStock where
  items : List Item
  capacity : Nat
  name : Datum
  capacity_pos : 0 < capacity
  fits : ∀ item ∈ items, item.width ≤ capacity

namespace CuttingStock

/-- The first item that is wider than a roll. -/
def tooWide? (items : List Item) (capacity : Nat) : Option Item :=
  items.find? fun item => capacity < item.width

/-- An instance from the width of a roll, which must be whole and positive, and the items, none of
which may be wider. -/
def make (capacity : Datum) (items : Except Fault (List Item)) (name : Datum) :
    Except Fault CuttingStock := do
  match ← capacity.whole? with
  | none => .error (.rollWidth capacity)
  | some size =>
    if h : 0 < size.toNat then
      let items ← items
      if fit : ∀ item ∈ items, item.width ≤ size.toNat then
        return { items, capacity := size.toNat, name, capacity_pos := h, fits := fit }
      else
        match tooWide? items size.toNat with
        | some item => .error (.itemTooWide item.name item.width size.toNat)
        | none => .error .wrongType
    else .error (.rollWidth capacity)

/-- Whether a name occurs in the data of an instance: among the names of a record, as an element of
a list or as a part of a text. -/
def mentions (given : Datum) (name : String) : Except Fault Bool :=
  match given with
  | .record fields => .ok (fields.lookup name).isSome
  | .list elements => .ok (elements.any (·.same (.text name)))
  | .text s => .ok (1 < (s.splitOn name).length)
  | _ => .error .wrongType

/-- Refuses data in which a name does not occur. -/
def requireMention (given : Datum) (name : String) : Except Fault Unit := do
  if !(← mentions given name) then .error (.instanceEntryMissing name)

/-- An instance from plain data. The names of all parts are looked for before the first part is
looked at. -/
def read (given : Datum) : Except Fault CuttingStock := do
  ["widths", "demands", "capacity"].forM (requireMention given)
  let _ ← (← given.entryAt (.text "widths")).elements
  let _ ← (← given.entryAt (.text "demands")).elements
  make (← given.entryAt (.text "capacity")) (Item.readRecord given)
    ((given.field? "name").getD .null)

/-- The widths of the items. -/
def widths (stock : CuttingStock) : List Nat := stock.items.map (·.width)

/-- The demands of the items. -/
def demands (stock : CuttingStock) : List Nat := stock.items.map (·.demand)

/-- The number of items. -/
def numItems (stock : CuttingStock) : Nat := stock.items.length

/-- The number of pieces wanted. -/
def totalDemand (stock : CuttingStock) : Nat := total stock.demands

/-- The total width of the pieces wanted. -/
def totalWidth (stock : CuttingStock) : Nat :=
  total (List.zipWith (· * ·) stock.widths stock.demands)

/-- How many copies of the item at a position fit into a roll. -/
def maxCopies {ι : Type} [Position ι] (stock : CuttingStock) (item : ι) : Except Fault Datum := do
  (← Position.entry stock.items item).maxCopies (.int stock.capacity)

/-- Every width in a pattern is positive. -/
theorem widths_pos (stock : CuttingStock) : ∀ width ∈ stock.widths, 0 < width := by
  intro width h
  obtain ⟨item, _, rfl⟩ := List.mem_map.1 h
  exact item.width_pos

variable {ι α : Type} [Position ι] [Quantity α]

/-- The number of rolls if nothing were wasted. -/
def lowerBound (stock : CuttingStock) : Except Fault α :=
  Quantity.ratio? stock.totalWidth stock.capacity

/-- The knapsack of the patterns of one roll. -/
def knapsack (stock : CuttingStock) (settings : PricingSettings α) : Knapsack α where
  widths := stock.widths
  capacity := stock.capacity
  settings := settings
  widths_pos := stock.widths_pos

/-- The two arcs of a stage: the loop that cuts its item once, and the way to the next stage. -/
def stageArcs (stage width : Nat) : List (Arc ι α) :=
  let here : ι := Position.ofNat stage
  [{ index := Position.ofNat (2 * stage), source := here, target := here, cost := Quantity.zero
     consumption := [Quantity.ofInt width], item := some here },
    { index := Position.ofNat (2 * stage + 1), source := here
      target := Position.ofNat (stage + 1), cost := Quantity.zero
      consumption := [Quantity.ofInt 0] }]

/-- The network whose paths are the patterns of one roll: a chain of stages, one for each item, with
the used width as its only resource. -/
def network (stock : CuttingStock) : Except Fault (Network ι α) := do
  let window ←
    Window.make (some (Quantity.ofInt 0)) (some (Quantity.ofInt stock.capacity)) (.text "width")
  let stages := List.range stock.numItems
  if stages.isEmpty then .error .indexOutOfRange
  else
    return {
      windows := [window]
      names :=
        (stages.map (fun stage => Datum.text s!"stage_{stage}") ++ [Datum.text "end"]).toArray
      arcs := ((stages.zip stock.widths).flatMap fun (stage, width) =>
        stageArcs stage width).toArray
      outgoing := (stages.map (fun stage => [2 * stage, 2 * stage + 1]) ++ [[]]).toArray
      source := some (Position.ofNat 0)
      sink := some (Position.ofNat stock.numItems) }

/-- The path search for the patterns of one roll. -/
def pathSearch (stock : CuttingStock) (settings : PricingSettings α) :
    Except Fault (PathSearch ι α) := do
  PathSearch.make (← stock.network) (some (Position.ofNat stock.numItems)) settings

/-- The oracle of the given name; a path search may take `fuel` visits for each call, and a knapsack
has room for a table of at most `room` widths. -/
def oracle (stock : CuttingStock) (method : Datum) (settings : PricingSettings α) (fuel : Nat)
    (room : Nat := Datum.mostRepeated) : Except Fault (Oracle Unit α) :=
  match method with
  | .text "knapsack" => .ok ((stock.knapsack settings).oracle room)
  | .text "spprc" => do
    let search : PathSearch Int α ← stock.pathSearch settings
    return search.oracle fuel
  | _ => .error (.unknownMethod method)

end CuttingStock

end PatternCovering
