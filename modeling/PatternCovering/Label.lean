import PatternCovering.Datum.Written
import PatternCovering.Quantity

/-!
# Labels

A label stands for a path from the source to a node: the cost and the resources accumulated along
it, the label it extends and the arc by which it does. A label dominates another when it is no more
expensive and uses no more of any resource; labels that agree dominate each other.
-/

namespace PatternCovering

/-- A path from the source, by its last step and its totals. -/
structure Label (ι α : Type) where
  id : ι
  node : ι
  resources : List α
  cost : α
  predecessor : Option ι := none
  arc : Option ι := none
  dominated : Bool := false

namespace Label

variable {ι α : Type} [Position ι] [Quantity α]

/-- Whether the label extends no other one. -/
def isSource (label : Label ι α) : Bool := label.predecessor.isNone

/-- Whether no amount of the first list is above the one of the second list at the same place, as
far as both go; the first amount that is settles it. -/
def noneAbove : List α → List α → Except Fault Bool
  | mine :: rest, theirs :: others => do
    if ← Quantity.lt? theirs mine then return false else noneAbove rest others
  | _, _ => .ok true

/-- Whether a label is no worse than another in its cost and in every resource, as far as both
vectors go. -/
def dominates (label other : Label ι α) : Except Fault Bool := do
  if ← Quantity.lt? other.cost label.cost then return false
  else noneAbove label.resources other.resources

/-- The label as it is shown. -/
def shown (label : Label ι α) : Except Fault String := do
  let flag := if label.dominated then ", dominated" else ""
  let uses := tupleText (label.resources.map fun used => (Quantity.report used).shown)
  let cost ← (Quantity.report label.cost).fixed 4
  let place := s!"#{Position.plain label.id}, node={Position.plain label.node}"
  return s!"Label({place}, cost={cost}, res={uses}{flag})"

end Label

end PatternCovering
