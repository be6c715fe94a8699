/-!
# Sorting by insertion

The run at the start of a list that is in order already is kept, turned round if it falls, and every
later entry is inserted after those that it does not come before; the place is found by bisection.
This sorts entries of which any two can be compared. Where two entries are not comparable, neither
comes before the other, and the list is what the comparisons made on the way lead to.
-/

namespace PatternCovering.InsertionSort

variable {β : Type}

/-- The entries after a first one as long as none comes before the one in front of it, and the
others. -/
def rising (before : β → β → Bool) : β → List β → List β × List β
  | _, [] => ([], [])
  | last, entry :: rest =>
    if before entry last then ([], entry :: rest)
    else
      let (run, others) := rising before entry rest
      (entry :: run, others)

/-- The entries after a first one as long as each comes before the one in front of it, and the
others. -/
def falling (before : β → β → Bool) : β → List β → List β × List β
  | _, [] => ([], [])
  | last, entry :: rest =>
    if before entry last then
      let (run, others) := falling before entry rest
      (entry :: run, others)
    else ([], entry :: rest)

/-- The run at the start of a list, in rising order, and the others. -/
def leadingRun (before : β → β → Bool) : List β → List β × List β
  | [] => ([], [])
  | first :: rest =>
    match falling before first rest with
    | ([], _) =>
      let (run, others) := rising before first rest
      (first :: run, others)
    | (run, others) => ((first :: run).reverse, others)

/-- The place between `low` and `high` at which an entry is inserted. -/
def place (before : β → β → Bool) (entries : Array β) (entry : β) (low high : Nat) : Nat :=
  if low < high then
    let middle := (low + high) / 2
    match entries[middle]? with
    | none => low
    | some known =>
      if before entry known then place before entries entry low middle
      else place before entries entry (middle + 1) high
  else low
termination_by high - low

/-- The entries with one more. -/
def insert (before : β → β → Bool) (entries : List β) (entry : β) : List β :=
  let position := place before entries.toArray entry 0 entries.length
  entries.take position ++ entry :: entries.drop position

/-- The entries in order. -/
def sort (before : β → β → Bool) (entries : List β) : List β :=
  let (run, others) := leadingRun before entries
  others.foldl (insert before) run

end PatternCovering.InsertionSort
