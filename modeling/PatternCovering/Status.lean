/-!
# Outcomes of solving a model

What an engine reports about a model, and the direction in which the model is optimised.
-/

namespace PatternCovering

/-- What is known of a model. Only an optimal model has values that may be read. -/
inductive Status where
  | optimal
  | infeasible
  | unbounded
  | infeasibleOrUnbounded
  | timeLimit
  | iterationLimit
  | notSolved
  | error
  deriving Repr, DecidableEq

namespace Status

/-- All outcomes. -/
def all : List Status :=
  [optimal, infeasible, unbounded, infeasibleOrUnbounded, timeLimit, iterationLimit, notSolved,
    error]

/-- The name by which an outcome is reported. -/
def name : Status → String
  | optimal => "OPTIMAL"
  | infeasible => "INFEASIBLE"
  | unbounded => "UNBOUNDED"
  | infeasibleOrUnbounded => "INF_OR_UNBOUNDED"
  | timeLimit => "TIME_LIMIT"
  | iterationLimit => "ITERATION_LIMIT"
  | notSolved => "NOT_SOLVED"
  | error => "ERROR"

/-- The outcome with the given name. -/
def ofName? (name : String) : Option Status := all.find? (·.name == name)

/-- The outcomes that an engine reports under names of its own. -/
def engineNames : List (String × Status) :=
  [("kNotset", notSolved), ("kModelEmpty", optimal), ("kOptimal", optimal),
    ("kInfeasible", infeasible), ("kUnbounded", unbounded),
    ("kUnboundedOrInfeasible", infeasibleOrUnbounded), ("kTimeLimit", timeLimit),
    ("kIterationLimit", iterationLimit)]

/-- The further names that an engine may report, each of them an error. -/
def engineErrors : List String :=
  ["kLoadError", "kModelError", "kPresolveError", "kSolveError", "kPostsolveError",
    "kObjectiveBound", "kObjectiveTarget", "kUnknown", "kSolutionLimit", "kInterrupt",
    "kMemoryLimit", "kHighsInterrupt"]

/-- What a name means that an engine may report. -/
def ofEngineName? (name : String) : Option Status :=
  (engineNames.lookup name).or (if engineErrors.contains name then some error else none)

/-- What the name that an engine reports means; without an engine, every name is an error. -/
def ofEngineName (available : Bool) (name : String) : Status :=
  if available then (ofEngineName? name).getD error else error

end Status

/-- The direction of optimisation. -/
inductive Sense where
  | minimize
  | maximize
  deriving Repr, DecidableEq

namespace Sense

/-- The name by which a direction is reported. -/
def name : Sense → String
  | minimize => "minimize"
  | maximize => "maximize"

/-- The direction with the given name. -/
def ofName? (name : String) : Option Sense := [minimize, maximize].find? (·.name == name)

end Sense

end PatternCovering
