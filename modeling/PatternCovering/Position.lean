import PatternCovering.Fault

/-!
# Positions in lists

A position counts from the start of a list, or, when it is negative, from its end. Nodes, arcs,
items and labels are given by positions: by integers, or by plain data that is kept as it was given
and has to stand for an integer only where a list is looked into. `Position` is what the algorithms
use of either.
-/

namespace PatternCovering

/-- The place in a list of some size that a position stands for, a negative one counting from the
end. -/
def placeAt? (size : Nat) (position : Int) : Option Nat :=
  if 0 ≤ position then (if position.toNat < size then some position.toNat else none)
  else if position.natAbs ≤ size then some (size - position.natAbs)
  else none

/-- The entry at a position, a negative one counting from the end. -/
def entryAt? {β : Type} (entries : List β) (position : Int) : Option β :=
  if 0 ≤ position then entries[position.toNat]?
  else if position.natAbs ≤ entries.length then entries[entries.length - position.natAbs]?
  else none

/-- The entry at a position, a negative one counting from the end; outside the list is a fault. -/
def entryAt {β : Type} (entries : List β) (position : Int) : Except Fault β :=
  match entryAt? entries position with
  | some entry => .ok entry
  | none => .error .indexOutOfRange

/-- Values that stand for positions. -/
class Position (ι : Type) where
  ofInt : Int → ι
  /-- The integer that a position stands for in a list. -/
  toInt : ι → Except Fault Int
  lt : ι → ι → Except Fault Bool
  le : ι → ι → Except Fault Bool
  eq : ι → ι → Bool
  /-- The position after one. -/
  next : ι → ι
  /-- The position as it was given. -/
  report : ι → Datum

instance : Position Int where
  ofInt n := n
  toInt n := .ok n
  lt m n := .ok (m < n)
  le m n := .ok (m ≤ n)
  eq m n := m == n
  next n := n + 1
  report n := .int n

namespace Position

variable {ι : Type} [Position ι]

/-- The position of a natural number. -/
def ofNat (n : Nat) : ι := ofInt n

/-- The place in a list of some size that a position stands for. -/
def place (size : Nat) (position : ι) : Except Fault Nat := do
  match placeAt? size (← toInt position) with
  | some place => return place
  | none => .error .indexOutOfRange

/-- The entry of a list at a position. -/
def entry {β : Type} (entries : List β) (position : ι) : Except Fault β := do
  entryAt entries (← toInt position)

/-- The entry of an array at a position. -/
def element {β : Type} (entries : Array β) (position : ι) : Except Fault β := do
  match entries[← place entries.size position]? with
  | some entry => return entry
  | none => .error .indexOutOfRange

/-- The position as plain text. -/
def plain (position : ι) : String := (report position).plain

end Position

/-- Parts between round brackets, a single part followed by a comma. -/
def tupleText : List String → String
  | [part] => "(" ++ part ++ ",)"
  | parts => "(" ++ String.intercalate ", " parts ++ ")"

end PatternCovering
