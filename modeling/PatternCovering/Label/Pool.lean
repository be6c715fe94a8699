import PatternCovering.Label

/-!
# Label pools

A pool keeps every label that was created, by its identifier, and lists for each node the labels
that are still live there. A label that is found dominated is flagged and leaves its list for good;
the gap it leaves is filled by the last label of the list. Where labels cannot be compared, what was
taken out before stays out.
-/

namespace PatternCovering

/-- A list with its last entry moved to the front. -/
def lastFirst {β : Type} : List β → List β
  | [] => []
  | entry :: rest => (entry :: rest).getLast (by simp) :: (entry :: rest).dropLast

/-- Moving the last entry to the front keeps the length. -/
@[simp]
theorem length_lastFirst {β : Type} (entries : List β) :
    (lastFirst entries).length = entries.length := by
  cases entries <;> simp [lastFirst]

/-- What becomes of a list that is gone along: the entries left, in their order, those taken out,
and whether the end was reached. -/
structure Sifted (β : Type) where
  left : Array β
  removed : List β
  finished : Except Fault Unit

/-- Goes once along a list and takes out the entries for which `drop` holds, given the entries kept
so far and the ones still ahead. The place of an entry that is taken out is filled by the last one,
which is then looked at next. -/
def sift {β : Type} (drop : Array β → List β → β → Except Fault Bool) (kept : Array β)
    (ahead : List β) : Sifted β :=
  match ahead with
  | [] => ⟨kept, [], .ok ()⟩
  | entry :: rest =>
    match drop kept rest entry with
    | .error fault => ⟨kept ++ (entry :: rest), [], .error fault⟩
    | .ok true =>
      let others := sift drop kept (lastFirst rest)
      { others with removed := entry :: others.removed }
    | .ok false => sift drop (kept.push entry) rest
termination_by ahead.length
decreasing_by all_goals simp

/-- All labels created so far and the live ones at each node. -/
structure LabelPool (ι α : Type) where
  numNodes : ι
  arena : Array (Label ι α) := #[]
  live : Array (Array Nat)
  numDominated : Nat := 0

namespace LabelPool

variable {ι α : Type} [Position ι] [Quantity α]

/-- The pool of a number of nodes without any label. -/
def ofSize (numNodes : Nat) : LabelPool ι α :=
  { numNodes := Position.ofNat numNodes, live := Array.replicate numNodes #[] }

/-- The pool of a number of nodes without any label, where that number may be given in any form that
stands for an integer. -/
def make (numNodes : ι) : Except Fault (LabelPool ι α) := do
  return { numNodes, live := Array.replicate (← Position.toInt numNodes).toNat #[] }

/-- The pool without its labels. -/
def clear (pool : LabelPool ι α) : LabelPool ι α :=
  { numNodes := pool.numNodes, live := Array.replicate pool.live.size #[] }

/-- The number of labels created. -/
def numCreated (pool : LabelPool ι α) : Nat := pool.arena.size

/-- The number of live labels. -/
def numLive (pool : LabelPool ι α) : Nat := total (pool.live.toList.map Array.size)

/-- The identifiers of the live labels at a node. -/
def liveAt (pool : LabelPool ι α) (node : Nat) : Array Nat := pool.live[node]?.getD #[]

/-- The node that a position stands for. -/
def nodeAt (pool : LabelPool ι α) (position : ι) : Except Fault Nat :=
  Position.place pool.live.size position

/-- The identifier that a position in the arena stands for. -/
def idAt (pool : LabelPool ι α) (position : ι) : Except Fault Nat :=
  Position.place pool.arena.size position

/-- Creates a label under the next identifier; it is not live yet. -/
def create (pool : LabelPool ι α) (node : ι) (resources : List α) (cost : α)
    (predecessor arc : Option ι) : LabelPool ι α :=
  let label : Label ι α :=
    { id := Position.ofNat pool.numCreated, node, resources, cost, predecessor, arc }
  { pool with arena := pool.arena.push label }

/-- Whether the label with one identifier dominates the label with another. -/
def dominates (pool : LabelPool ι α) (id other : Nat) : Except Fault Bool :=
  match pool.arena[id]?, pool.arena[other]? with
  | some label, some second => label.dominates second
  | _, _ => .ok false

/-- Whether one of some labels dominates the label with an identifier; the first one that does
settles it. -/
def anyDominates (pool : LabelPool ι α) (ids : List Nat) (other : Nat) : Except Fault Bool :=
  ids.anyM fun id => pool.dominates id other

/-- Flags labels as dominated and counts them. -/
def flag (pool : LabelPool ι α) (ids : List Nat) : LabelPool ι α :=
  { pool with
    arena := ids.foldl (fun arena id => arena.modify id fun label =>
      { label with dominated := true }) pool.arena
    numDominated := pool.numDominated + ids.length }

/-- Sets the live labels at a node. -/
def setLive (pool : LabelPool ι α) (node : Nat) (ids : Array Nat) : LabelPool ι α :=
  { pool with live := pool.live.setIfInBounds node ids }

/-- Adds a label to the live ones at a node. -/
def addLive (pool : LabelPool ι α) (node id : Nat) : LabelPool ι α :=
  { pool with live := pool.live.modify node (·.push id) }

/-- Makes a label live at a node unless a live label there dominates it, in which case it is
flagged. A label that becomes live takes out the live labels that it dominates. -/
def settle (pool : LabelPool ι α) (id node : Nat) : LabelPool ι α × Except Fault Bool :=
  let ids := (pool.liveAt node).toList
  match pool.anyDominates ids id with
  | .error fault => (pool, .error fault)
  | .ok true => (pool.flag [id], .ok false)
  | .ok false =>
    let sifted := sift (fun _ _ other => pool.dominates id other) #[] ids
    let flagged := (pool.flag sifted.removed).setLive node sifted.left
    match sifted.finished with
    | .error fault => (flagged, .error fault)
    | .ok () => (flagged.addLive node id, .ok true)

/-- Makes a label live at its node, if asked to only as far as dominance admits it. Says whether the
label became live. -/
def insert (pool : LabelPool ι α) (id : Nat) (check : Bool) : LabelPool ι α × Except Fault Bool :=
  match pool.arena[id]? with
  | none => (pool, .error .indexOutOfRange)
  | some label =>
    match pool.nodeAt label.node with
    | .error fault => (pool, .error fault)
    | .ok node =>
      if check then pool.settle id node
      else (pool.addLive node id, .ok true)

/-- Takes out every live label at a node that another live label there dominates, and gives their
number. -/
def sweep (pool : LabelPool ι α) (node : Nat) : LabelPool ι α × Except Fault Nat :=
  let drop (kept : Array Nat) (ahead : List Nat) (id : Nat) : Except Fault Bool := do
    if ← kept.anyM fun other => pool.dominates other id then return true
    else pool.anyDominates ahead id
  let sifted := sift drop #[] (pool.liveAt node).toList
  ((pool.flag sifted.removed).setLive node sifted.left,
    sifted.finished.map fun _ => sifted.removed.length)

/-- The label at a position of the arena. -/
def get (pool : LabelPool ι α) (id : ι) : Except Fault (Label ι α) := Position.element pool.arena id

/-- The identifiers of the live labels at the node of a position. -/
def liveIds (pool : LabelPool ι α) (node : ι) : Except Fault (Array Nat) :=
  Position.element pool.live node

/-- The labels from the source to a label, along at most `steps` extensions. -/
def chain (pool : LabelPool ι α) : (steps : Nat) → Label ι α → Except Fault (List (Label ι α))
  | 0, label => .ok [label]
  | steps + 1, label =>
    match label.predecessor with
    | none => .ok [label]
    | some id => do
      let previous ← pool.get id
      return (← pool.chain steps previous) ++ [label]

/-- The arcs from the source to a label. -/
def arcPath (pool : LabelPool ι α) (label : Label ι α) : Except Fault (List (Option ι)) := do
  return (← pool.chain pool.numCreated label).tail.map (·.arc)

/-- The nodes from the source to a label. -/
def nodePath (pool : LabelPool ι α) (label : Label ι α) : Except Fault (List ι) := do
  return (← pool.chain pool.numCreated label).map (·.node)

/-- The share of the labels created that were found dominated. -/
def dominanceRate (pool : LabelPool ι α) : Except Fault α :=
  if pool.numCreated = 0 then .ok Quantity.zero
  else Quantity.ratio? pool.numDominated pool.numCreated

/-- The largest number of live labels at one node. -/
def mostAtNode (pool : LabelPool ι α) : Nat :=
  (pool.live.toList.map Array.size).foldl max 0

/-- The pool as it is shown. -/
def shown (pool : LabelPool ι α) : String :=
  s!"LabelPool(nodes={Position.plain pool.numNodes}, labels={pool.numLive})"

end LabelPool

end PatternCovering
