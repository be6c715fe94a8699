import PatternCovering.Datum.Field
import PatternCovering.Problem

/-!
# Variables, constraints and references from plain data
-/

namespace PatternCovering

/-- What a piece of data refers to: a handle is given by its index and its name under the kind of
thing it stands for. -/
def Reference.read (given : Datum) : Reference :=
  match given with
  | .record [("var", .list [index, name])] => .ofVariable index name
  | .record [("con", .list [index, name])] => .ofConstraint index name
  | _ => .ofData given

/-- The direction of a problem, to minimise if none is given. -/
def Sense.read (given : Option Datum) : Except Fault Sense :=
  match given with
  | none => .ok .minimize
  | some (.text name) =>
    match ofName? name with
    | some sense => .ok sense
    | none => .error (.unknownSense (.text name))
  | some other => .error (.unknownSense other)

/-- A variable from plain data: from zero on, without an upper bound and without a coefficient in
the objective if nothing else is said. -/
def Variable.read (given : Datum) : Variable Datum where
  name := given.get "name"
  lower := some (given.getOr "lb" Quantity.zero)
  upper := given.field? "ub"
  objective := given.getOr "obj" Quantity.zero
  isInteger := given.getOr "is_integer" (.flag false)

/-- A row from plain data. -/
def Row.read (given : Datum) : Row Datum :=
  ⟨given.get "name", given.field? "lhs", given.field? "rhs"⟩

/-- A term of a constraint. -/
def readTerm (given : Datum) : Except Fault (Reference × Datum) := do
  match ← given.elements with
  | [reference, amount] => return (Reference.read reference, amount)
  | parts => .error (Datum.misfit 2 parts)

namespace Problem

variable {ε : Type}

/-- Creates a problem from plain data. -/
def createFrom (engine : Engine ε Datum) (problem : Problem ε) (given : Datum) :
    Problem ε × Except Fault Unit :=
  match Sense.read (given.field? "sense") with
  | .error fault => (problem, .error fault)
  | .ok sense => problem.create engine (given.get "name") sense

/-- Adds a constraint from plain data. -/
def addConstraintFrom (engine : Engine ε Datum) (problem : Problem ε) (given : Datum) :
    Problem ε × Except Fault Handle :=
  match (do (← given.elementsField "terms").mapM readTerm) with
  | .error fault => (problem, .error fault)
  | .ok terms =>
    problem.addConstraint engine (Row.read given) terms (given.getOr "modifiable" (.flag false))

end Problem

end PatternCovering
