import PatternCovering.Datum.Written

/-!
# The journal of a run

What a run reports as it goes: events with a level, the part that reports them, and a message. An
event carries the values of its message, so that the wording is in one place. A value may be such
that the message cannot be written, which matters only to a listener who hears the event.
-/

namespace PatternCovering

/-- How much an event matters. -/
inductive Level where
  | debug
  | info
  | warning
  deriving Repr, DecidableEq

namespace Level

/-- The name of a level. -/
def name : Level → String
  | debug => "DEBUG"
  | info => "INFO"
  | warning => "WARNING"

/-- The rank of a level among all levels. -/
def rank : Level → Nat
  | debug => 10
  | info => 20
  | warning => 30

end Level

/-- Something that happened in a run. -/
inductive Event where
  | problemCreated (name : Datum) (sense : Sense)
  | problemSolved (name : Datum) (status : Status)
  | columnAdded (id : Datum) (pattern : Pattern)
  | knapsackFilled (value : Datum) (width : Nat) (pattern : Pattern)
  | labelLimitReached (limit : Datum)
  | pathsSearched (created dominated visits : Nat) (reducedCost : Datum)
  | roundDone (verbose : Bool) (round : Nat) (objective reducedCost : Datum) (added total : Nat)
  | converged (rounds : Nat) (objective : Datum)
  | stopped (rounds : Nat)
  | budgetSpent (budget : Datum)
  | restrictionSolved (objective : Datum)
  | stockCut (objective bound : Datum) (columns : Nat)

namespace Event

/-- How much an event matters; a verbose run reports its rounds louder. -/
def level : Event → Level
  | problemCreated _ _ | problemSolved _ _ | columnAdded _ _ | knapsackFilled _ _ _
  | pathsSearched _ _ _ _ => .debug
  | roundDone verbose _ _ _ _ _ => if verbose then .info else .debug
  | converged _ _ | stopped _ | restrictionSolved _ | stockCut _ _ _ => .info
  | labelLimitReached _ | budgetSpent _ => .warning

/-- The part that reports an event. -/
def origin : Event → String
  | problemCreated _ _ | problemSolved _ _ => "colgen.master.base"
  | columnAdded _ _ => "colgen.master.covering"
  | knapsackFilled _ _ _ => "colgen.pricing.knapsack"
  | labelLimitReached _ | pathsSearched _ _ _ _ => "colgen.pricing.labeling"
  | roundDone _ _ _ _ _ _ | converged _ _ | stopped _ | budgetSpent _ | restrictionSolved _ =>
    "colgen.solver.column_generation"
  | stockCut _ _ _ => "colgen.applications.cutting_stock"

/-- The message of an event; a value that is no number cannot be written in it. -/
def message : Event → Except Fault String
  | problemCreated name sense => .ok s!"Created master problem '{name.plain}' ({sense.name})"
  | problemSolved name status => .ok s!"Master '{name.plain}' solved: {status.name}"
  | columnAdded id pattern => do
    let id ← id.loggedWhole
    return s!"Added column {id}: {pattern.shown}"
  | knapsackFilled value width pattern => do
    let value ← value.logged 6
    return s!"Knapsack: best value {value} at width {width}, pattern {pattern.shown}"
  | labelLimitReached limit => do
    let limit ← limit.loggedWhole
    return s!"Labeling stopped at the label limit ({limit})"
  | pathsSearched created dominated visits reducedCost => do
    let reducedCost ← reducedCost.logged 6
    return s!"Labeling: {created} labels created, {dominated} dominated, {visits} node pops, " ++
      s!"rc={reducedCost}"
  | roundDone _ round objective reducedCost added total => do
    let objective ← objective.logged 6
    let reducedCost ← reducedCost.logged 6
    return s!"Iteration {round}: obj={objective}, rc={reducedCost}, added={added}, total={total}"
  | converged rounds objective => do
    let objective ← objective.logged 6
    return s!"Column generation converged after {rounds} iterations (obj={objective})"
  | stopped rounds => .ok s!"Column generation stopped by callback at iteration {rounds}"
  | budgetSpent budget => do
    let budget ← budget.loggedWhole
    return s!"Column generation hit the iteration limit ({budget}) without converging"
  | restrictionSolved objective => do
    let objective ← objective.logged 6
    return s!"Integer restriction: obj={objective}"
  | stockCut objective bound columns => do
    let objective ← objective.logged 4
    let bound ← bound.logged 4
    return s!"Cutting stock: LP={objective}, lower bound={bound}, {columns} columns"

end Event

/-- The events of a run, in the order in which they happened. -/
abbrev Journal := Array Event

/-- Someone who is told of events; one that the listener cannot write down is a fault. -/
abbrev Listener := Event → Except Fault Unit

/-- The listener who hears nothing. -/
def Listener.deaf : Listener := fun _ => .ok ()

/-- The listener who writes down the events from a rank on. -/
def Listener.above (least : Nat) : Listener := fun event =>
  if least ≤ event.level.rank then event.message.map fun _ => () else .ok ()

end PatternCovering
