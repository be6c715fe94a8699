import PatternCovering.Quantity

/-!
# Arcs

An arc leads from one node to another at a cost. It consumes an amount of every resource and may
cover an item once. Nodes, arcs and items are given by their positions.
-/

namespace PatternCovering

/-- Free attributes: a table, or other data that was given in its place. -/
inductive Attributes where
  | table (entries : Table Datum)
  | other (given : Datum)

/-- The attribute under a key, a default if there is none. -/
def Attributes.get (attributes : Attributes) (key fallback : Datum) : Except Fault Datum :=
  match attributes with
  | .table entries => do
    return (← entries.get key).getD fallback
  | .other _ => .error .missingPart

/-- A way from one node to another. -/
structure Arc (ι α : Type) where
  index : ι
  source : ι
  target : ι
  cost : α
  consumption : List α := []
  item : Option ι := none
  attributes : Attributes := .table []

namespace Arc

variable {ι α : Type} [Position ι] [Quantity α]

/-- Whether the arc covers an item. -/
def coversItem (arc : Arc ι α) : Bool := arc.item.isSome

/-- Whether the arc ends where it starts. -/
def isLoop (arc : Arc ι α) : Bool := Position.eq arc.source arc.target

/-- The consumption of the resource at a position, none beyond the end of the vector. -/
def consumptionAt? (arc : Arc ι α) (resource : ι) : Except Fault (Option α) := do
  if ← Position.lt resource (Position.ofNat arc.consumption.length) then
    return some (← Position.entry arc.consumption resource)
  else return none

/-- The cost less the dual of the covered item; without an item, no dual is looked up. -/
def reducedCost (arc : Arc ι α) (dualOf : ι → Except Fault α) : Except Fault α :=
  match arc.item with
  | none => .ok arc.cost
  | some item => do
    Quantity.sub? arc.cost (← dualOf item)

/-- The arc as it is shown. -/
def shown (arc : Arc ι α) : String :=
  let item :=
    match arc.item with
    | none => ""
    | some item => s!", item={Position.plain item}"
  let uses := tupleText (arc.consumption.map fun used => (Quantity.report used).shown)
  let ends := s!"{Position.plain arc.source}->{Position.plain arc.target}"
  s!"Arc({Position.plain arc.index}, {ends}, cost={(Quantity.report arc.cost).plain}, " ++
    s!"use={uses}{item})"

end Arc

end PatternCovering
