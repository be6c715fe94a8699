import PatternCovering.Cover
import PatternCovering.Oracle

/-!
# Column generation

Round after round, the linear relaxation over the known columns is solved, its duals are given to an
oracle, and the column it offers is added if its reduced cost is below zero by more than a
tolerance. The run ends when an offer does not improve, when an observer asks for it, or when the
budget of rounds is spent; none of these is a failure. A failure in the middle of a round leaves the
columns of the finished rounds in place.
-/

namespace PatternCovering

/-- How a run of column generation ended. -/
inductive GenerationStatus where
  | optimal
  | feasible
  | iterationLimit
  | notSolved
  deriving Repr, DecidableEq

namespace GenerationStatus

/-- The name by which the end of a run is reported. -/
def name : GenerationStatus → String
  | optimal => "OPTIMAL"
  | feasible => "FEASIBLE"
  | iterationLimit => "ITERATION_LIMIT"
  | notSolved => "NOT_SOLVED"

/-- The end of a run with the given name. -/
def ofName? (name : String) : Option GenerationStatus :=
  [optimal, feasible, iterationLimit, notSolved].find? (·.name == name)

end GenerationStatus

/-- One finished round. -/
structure Round (α : Type) where
  number : Nat
  /-- The objective of the relaxation, none if the engine had no value for it. -/
  objective : Option α
  reducedCost : α
  numAdded : Nat
  totalColumns : Nat

/-- The result of a run. -/
structure Outcome (α : Type) where
  status : GenerationStatus := .notSolved
  converged : Bool := false
  objective : Option α := none
  integerObjective : Option α := none
  /-- The columns with a positive value in the last relaxation. -/
  columns : List (Column α) := []
  /-- The columns with a positive value in the integer restriction. -/
  integerColumns : List (Column α) := []
  totalColumns : Nat := 0
  rounds : Nat := 0
  history : List (Round α) := []

/-- A round as plain data. -/
structure RoundSheet where
  number : Nat
  objective : Datum
  reducedCost : Datum
  added : Datum
  total : Datum

/-- The parts of a result that are reported as plain data. -/
structure OutcomeSheet where
  converged : Datum := .flag false
  totalColumns : Datum := .int 0
  rounds : Datum := .int 0
  history : List RoundSheet := []

/-- The report of a quantity, nothing if there is none. -/
def reportOption {α : Type} [Quantity α] (value : Option α) : Datum :=
  (value.map Quantity.report).getD .null

/-- A round as plain data. -/
def Round.sheet {α : Type} [Quantity α] (round : Round α) : RoundSheet where
  number := round.number
  objective := reportOption round.objective
  reducedCost := Quantity.report round.reducedCost
  added := .int round.numAdded
  total := .int round.totalColumns

namespace Outcome

variable {α : Type} [Quantity α]

/-- Whether the relaxation over all columns was solved. -/
def isOptimal (outcome : Outcome α) : Bool := outcome.status == .optimal

/-- The values of columns that have both an identifier and a value, a later column replacing an
earlier one of the same identifier. -/
def valuesOf : List (Column α) → Table α → Except Fault (Table α)
  | [], known => .ok known
  | column :: rest, known => do
    match column.id, column.value with
    | .null, _ | _, none => valuesOf rest known
    | id, some value => valuesOf rest (← known.insert id value)

/-- The values of the columns of a result. -/
def values (outcome : Outcome α) : Except Fault (Table α) := valuesOf outcome.columns []

/-- The parts of a result as plain data. -/
def sheet (outcome : Outcome α) : OutcomeSheet where
  converged := .flag outcome.converged
  totalColumns := .int outcome.totalColumns
  rounds := .int outcome.rounds
  history := outcome.history.map Round.sheet

/-- An optional quantity with six places after a heading, as a line or none. -/
def line (heading : String) : Option α → Except Fault (List String)
  | none => .ok []
  | some value => do
    return [heading ++ (← (Quantity.report value).fixed 6)]

/-- A summary in lines, with the given sheet and times: in all, in the relaxations, in pricing. -/
def summary (outcome : Outcome α) (sheet : OutcomeSheet) (total relaxation pricing : Datum) :
    Except Fault String := do
  let objective ← line "  Objective: " outcome.objective
  let integer ← line "  IP Objective: " outcome.integerObjective
  let totalTime ← total.fixed 3
  let relaxationTime ← relaxation.fixed 3
  let pricingTime ← pricing.fixed 3
  return String.intercalate "\n"
    (["Column Generation Solution:", s!"  Status: {outcome.status.name}",
        s!"  Converged: {sheet.converged.plain}"] ++ objective ++ integer ++
      [s!"  Iterations: {sheet.rounds.plain}", s!"  Total columns: {sheet.totalColumns.plain}",
        s!"  Active columns: {outcome.columns.length}", s!"  Total time: {totalTime}s",
        s!"    Master: {relaxationTime}s", s!"    Pricing: {pricingTime}s"])

/-- The result as it is shown, with the given number of rounds. -/
def shown (outcome : Outcome α) (rounds : Datum) : Except Fault String := do
  let objective ←
    match outcome.objective with
    | none => .ok ""
    | some value => do
      let text ← (Quantity.report value).fixed 4
      .ok s!", obj={text}"
  return s!"CGSolution({outcome.status.name}{objective}, iters={rounds.plain})"

end Outcome

/-- What a run can be told: its budget of rounds, the tolerance for an improvement, whether to solve
the integer restriction afterwards, and whether to report rounds loudly. The last two are kept as
they were given. -/
structure GenerationSettings (α : Type) where
  budget : Number
  tolerance : α
  solveInteger : Datum := .flag false
  verbose : Datum := .flag false
  /-- How many rounds are taken of an infinite budget. -/
  patience : Nat := powTen 18

namespace GenerationSettings

/-- A budget, which must be at least one round. -/
def checkBudget (given : Datum) : Except Fault Number := do
  if ← given.lt (.int 1) then .error (.budgetTooSmall given) else given.toNumber

/-- Refuses a negative tolerance. -/
def checkTolerance {α : Type} [Quantity α] (tolerance : α) : Except Fault Unit := do
  if ← Quantity.lt? tolerance (Quantity.ofInt 0) then
    .error (.toleranceNegative (Quantity.report tolerance))

/-- Settings with a budget of at least one round and a tolerance that is not negative. -/
def make {α : Type} [Quantity α] (budget : Datum) (tolerance : α) (solveInteger verbose : Datum)
    (patience : Nat := powTen 18) : Except Fault (GenerationSettings α) := do
  let budget ← checkBudget budget
  checkTolerance tolerance
  return { budget, tolerance, solveInteger, verbose, patience }

/-- The number of rounds that the settings allow: a fraction of a budget allows one more round, an
infinite budget as many as there is patience for, and a budget that is not a number none. -/
def rounds {α : Type} (settings : GenerationSettings α) : Nat :=
  match settings.budget.exactValue? with
  | some value => value.ceil.toNat
  | none => if (Number.int 0).lt settings.budget then settings.patience else 0

end GenerationSettings

/-- Refuses an oracle for another number of items. -/
def Cover.checkOracle {ε σ α : Type} [Quantity α] (cover : Cover ε α) (oracle : Oracle σ α) :
    Except Fault Unit :=
  if (Datum.int cover.numItems).eq oracle.numItems then .ok ()
  else if oracle.numItems.isTooLong then .error .integerTooLong
  else .error (.itemsDiffer cover.numItems oracle.numItems)

/-- Someone who looks at each round that added a column and may end the run by answering `false`. -/
abbrev Observer (α : Type) := Round α → Except Fault Bool

/-- A run set up: how to solve, how to price, and what to heed. -/
structure Generation (ε σ α : Type) where
  engine : Engine ε α
  oracle : Oracle σ α
  settings : GenerationSettings α
  /-- The tolerance above which a column counts as used. -/
  feasibility : α
  observers : List (Observer α) := []

namespace Generation

variable {ε σ α : Type} [Quantity α]

/-- A run under way. -/
structure Progress (ε σ α : Type) where
  cover : Cover ε α
  oracle : σ
  history : List (Round α) := []
  /-- The calls of observers, by their position. -/
  calls : List (Nat × Round α) := []
  /-- The latest solution of the relaxation in this run. -/
  solution : Option (CoverSolution α) := none

/-- Tells of events one after the other, until the listener fails. -/
def Progress.tell (progress : Progress ε σ α) : List Event → Progress ε σ α × Except Fault Unit
  | [] => (progress, .ok ())
  | event :: rest =>
    match progress.cover.tell event with
    | (cover, .error fault) => ({ progress with cover }, .error fault)
    | (cover, .ok ()) => Progress.tell { progress with cover } rest

/-- Tells of the event that ends a run, and gives how it ended. -/
def Progress.close (progress : Progress ε σ α) (event : Event) (status : GenerationStatus) :
    Progress ε σ α × Except Fault GenerationStatus :=
  let (told, outcome) := progress.tell [event]
  (told, outcome.map fun _ => status)

/-- Asks observers from the one at a position on, until one of them ends the run or fails; gives the
calls made and whether the run goes on. -/
def consult (round : Round α) : (position : Nat) → List (Observer α) →
    List (Nat × Round α) × Except Fault Bool
  | _, [] => ([], .ok true)
  | position, observer :: rest =>
    match observer round with
    | .ok true =>
      let (calls, continues) := consult round (position + 1) rest
      ((position, round) :: calls, continues)
    | ended => ([(position, round)], ended)

/-- The failure of offering a column that is known already. -/
def pricedAgain (offer : Offer α) : Fault :=
  match (Quantity.report offer.reducedCost).scientific 3 with
  | .ok reducedCost => .columnPricedAgain offer.column.pattern reducedCost
  | .error fault => fault

/-- Whether the column of an offer is to be added. A column that improves but is known already is a
failure. -/
def isAccepted (generation : Generation ε σ α) (cover : Cover ε α) (offer : Offer α) :
    Except Fault Bool := do
  if ← offer.isImproving generation.settings.tolerance then
    if ← cover.hasColumn offer.column then .error (pricedAgain offer) else return true
  else return false

/-- Adds the column of an offer if it improves, and gives the number of columns added. -/
def accept (generation : Generation ε σ α) (cover : Cover ε α) (offer : Offer α) :
    Cover ε α × Except Fault Nat :=
  match generation.isAccepted cover offer with
  | .error fault => (cover, .error fault)
  | .ok false => (cover, .ok 0)
  | .ok true =>
    match cover.addColumn generation.engine offer.column .null with
    | (grown, .error fault) => (grown, .error fault)
    | (grown, .ok _) => (grown, .ok 1)

/-- The part of a round that can fail: solve the relaxation, price its duals, and add the column if
it improves. Gives the offer and the number of columns added. -/
def advance (generation : Generation ε σ α) (progress : Progress ε σ α) :
    Progress ε σ α × Except Fault (CoverSolution α × Offer α × Nat) :=
  match progress.cover.solveRelaxation generation.engine generation.feasibility with
  | (cover, .error fault) => ({ progress with cover }, .error fault)
  | (cover, .ok solution) =>
    let (oracle, events, priced) := generation.oracle.price progress.oracle solution.duals
    match { progress with cover, oracle, solution := some solution }.tell events, priced with
    | (asked, .error fault), _ => (asked, .error fault)
    | (asked, .ok ()), .error fault => (asked, .error fault)
    | (asked, .ok ()), .ok offer =>
      match generation.accept asked.cover offer with
      | (cover, .error fault) => ({ asked with cover }, .error fault)
      | (cover, .ok added) => ({ asked with cover }, .ok (solution, offer, added))

/-- Asks the observers about a round that added a column. Gives how the run ended, if one of them
ended it. -/
def observe (generation : Generation ε σ α) (progress : Progress ε σ α) (done : Round α) :
    Progress ε σ α × Except Fault (Option GenerationStatus) :=
  let (calls, continues) := consult done 0 generation.observers
  let consulted := { progress with calls := progress.calls ++ calls }
  match continues with
  | .error fault => (consulted, .error fault)
  | .ok true => (consulted, .ok none)
  | .ok false =>
    let (closed, outcome) := consulted.close (.stopped done.number) .feasible
    (closed, outcome.map some)

/-- One round. Gives how the run ended, if it ended with this round. -/
def round (generation : Generation ε σ α) (progress : Progress ε σ α) :
    Progress ε σ α × Except Fault (Option GenerationStatus) :=
  match generation.advance progress with
  | (advanced, .error fault) => (advanced, .error fault)
  | (advanced, .ok (solution, offer, added)) =>
    let number := advanced.history.length + 1
    let objective := reportOption solution.objective
    let total := advanced.cover.numColumns
    let done : Round α := ⟨number, solution.objective, offer.reducedCost, added, total⟩
    match { advanced with history := advanced.history ++ [done] }.tell
        [.roundDone generation.settings.verbose.truthy number objective
          (Quantity.report offer.reducedCost) added total] with
    | (reported, .error fault) => (reported, .error fault)
    | (reported, .ok ()) =>
      if added = 0 then
        let (closed, outcome) := reported.close (.converged number objective) .optimal
        (closed, outcome.map some)
      else generation.observe reported done

/-- At most the given number of rounds. -/
def loop (generation : Generation ε σ α) :
    (rounds : Nat) → Progress ε σ α → Progress ε σ α × Except Fault GenerationStatus
  | 0, progress =>
    progress.close (.budgetSpent (.number generation.settings.budget)) .iterationLimit
  | rounds + 1, progress =>
    match generation.round progress with
    | (advanced, .error fault) => (advanced, .error fault)
    | (advanced, .ok (some status)) => (advanced, .ok status)
    | (advanced, .ok none) => generation.loop rounds advanced

/-- The columns that a run uses in its latest relaxation. -/
def usedColumns (generation : Generation ε σ α) (progress : Progress ε σ α) :
    Except Fault (List (Column α)) :=
  match progress.solution with
  | some solution => progress.cover.activeColumns solution generation.feasibility
  | none => .ok []

/-- The result of the rounds of a run. -/
def outcomeOf (generation : Generation ε σ α) (progress : Progress ε σ α)
    (status : GenerationStatus) : Except Fault (Outcome α) := do
  return {
    status
    converged := status == .optimal
    objective := progress.solution.bind (·.objective)
    columns := ← generation.usedColumns progress
    totalColumns := progress.cover.numColumns
    rounds := progress.history.length
    history := progress.history }

/-- Solves the integer restriction over the columns of a run and adds it to the result. -/
def restrict (generation : Generation ε σ α) (progress : Progress ε σ α) (outcome : Outcome α) :
    Progress ε σ α × Except Fault (Outcome α) :=
  match progress.cover.solveRestriction generation.engine generation.feasibility with
  | (cover, .error fault) => ({ progress with cover }, .error fault)
  | (cover, .ok solution) =>
    let restricted := { progress with cover }
    match cover.activeColumns solution generation.feasibility with
    | .error fault => (restricted, .error fault)
    | .ok integerColumns =>
      let (told, heard) :=
        restricted.tell [.restrictionSolved (reportOption solution.objective)]
      (told, heard.map fun _ =>
        { outcome with integerObjective := solution.objective, integerColumns })

/-- A whole run from a cover and the state of the oracle. -/
def solve (generation : Generation ε σ α) (cover : Cover ε α) (oracle : σ) :
    Progress ε σ α × Except Fault (Outcome α) :=
  match generation.loop generation.settings.rounds { cover, oracle } with
  | (progress, .error fault) => (progress, .error fault)
  | (progress, .ok status) =>
    match generation.outcomeOf progress status with
    | .error fault => (progress, .error fault)
    | .ok outcome =>
      if generation.settings.solveInteger.truthy then generation.restrict progress outcome
      else (progress, .ok outcome)

end Generation

end PatternCovering
