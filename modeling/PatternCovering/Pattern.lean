/-!
# Patterns

A pattern says how many copies of each item one unit of capacity yields. Densely it is a list of
counts by item; sparsely it lists the items that occur, in increasing order, with their counts.
-/

namespace PatternCovering

/-- The items that occur in a pattern, in increasing order, each with its positive count. -/
abbrev Pattern := List (Nat × Nat)

namespace Pattern

/-- The sparse pattern of the counts of the items from `first` on. -/
def ofCountsFrom (first : Nat) : List Nat → Pattern
  | [] => []
  | count :: rest =>
    if 0 < count then (first, count) :: ofCountsFrom (first + 1) rest
    else ofCountsFrom (first + 1) rest

/-- The sparse pattern of a list of counts by item. -/
def ofCounts (counts : List Nat) : Pattern := ofCountsFrom 0 counts

/-- The count of an item, zero if it does not occur. -/
def count (pattern : Pattern) (item : Nat) : Nat := (pattern.lookup item).getD 0

/-- The pattern as it is shown: items with their counts between braces. -/
def shown (pattern : Pattern) : String :=
  let entries := pattern.map fun (item, count) => toString item ++ ": " ++ toString count
  "\x7b" ++ String.intercalate ", " entries ++ "\x7d"

end Pattern

end PatternCovering
