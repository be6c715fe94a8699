import PatternCovering.Generation

/-!
# Sessions

A session solves with one cover and one oracle, again and again. Each run goes on with the columns
and the oracle as the run before left them, also where that one failed, and the latest result that
was reached is kept.
-/

namespace PatternCovering

/-- A call of an observer: its position, the round, and whether a result was known by then. -/
structure ObserverCall (α : Type) where
  position : Nat
  round : Round α
  solved : Bool

/-- Runs on one cover and one oracle. -/
structure Session (ε σ α : Type) where
  cover : Cover ε α
  oracle : σ
  latest : Option (Outcome α) := none
  calls : List (ObserverCall α) := []

namespace Session

variable {ε σ α : Type} [Quantity α]

/-- Whether a result was reached. -/
def isSolved (session : Session ε σ α) : Bool := session.latest.isSome

/-- The rounds of the latest result. -/
def history (session : Session ε σ α) : List (Round α) :=
  (session.latest.map (·.history)).getD []

/-- One run. -/
def solve (generation : Generation ε σ α) (session : Session ε σ α) :
    Session ε σ α × Except Fault (Outcome α) :=
  let (progress, outcome) := generation.solve session.cover session.oracle
  let calls := progress.calls.map fun (position, round) => ⟨position, round, session.isSolved⟩
  let latest :=
    match outcome with
    | .ok reached => some reached
    | .error _ => session.latest
  ({ cover := progress.cover, oracle := progress.oracle, latest
     calls := session.calls ++ calls }, outcome)

/-- A number of runs, with what came of each of them. -/
def solveTimes (generation : Generation ε σ α) :
    Nat → Session ε σ α → Session ε σ α × List (Except Fault (Outcome α))
  | 0, session => (session, [])
  | count + 1, session =>
    let (next, outcome) := session.solve generation
    let (final, outcomes) := solveTimes generation count next
    (final, outcome :: outcomes)

/-- The session as it is shown. -/
def shown (generation : Generation ε σ α) (session : Session ε σ α) : String :=
  let state := if session.isSolved then "solved" else "not solved"
  s!"ColumnGeneration({session.cover.shown}, {generation.oracle.shown}, {state})"

end Session

end PatternCovering
