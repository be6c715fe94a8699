import PatternCovering.Quantity

/-!
# Resource windows

A resource starts at zero, grows along arcs by their consumption, and must stay inside a window. A
window without a lower or an upper bound is open on that side.
-/

namespace PatternCovering

/-- The range in which a resource must stay. -/
structure Window (α : Type) where
  lower : Option α
  upper : Option α
  name : Datum := .text ""

namespace Window

variable {α : Type} [Quantity α]

/-- Whether a real number is not even comparable with itself. -/
def isNaN (a : α) : Bool := !(Quantity.le a a)

/-- Refuses a bound that is not a number or out of the range of real numbers. -/
def checkBound : Option α → Except Fault Unit
  | none => .ok ()
  | some bound => do
    if isNaN (← Quantity.measure? bound) then .error .windowNaN

/-- A window from its bounds, which must not cross. -/
def make (lower upper : Option α) (name : Datum) : Except Fault (Window α) := do
  checkBound lower
  checkBound upper
  match lower, upper with
  | some low, some high =>
    if Quantity.lt high low then
      .error (.windowEmpty (Quantity.report low) (Quantity.report high))
    else return { lower, upper, name }
  | _, _ => return { lower, upper, name }

/-- Whether a value is at least a lower bound; an open side admits every value but not-a-number. -/
def aboveLower (lower : Option α) (value : α) : Except Fault Bool :=
  match lower with
  | some bound => Quantity.le? bound value
  | none => Quantity.le? value value

/-- Whether a value is at most an upper bound; an open side admits every value but not-a-number. -/
def belowUpper (upper : Option α) (value : α) : Except Fault Bool :=
  match upper with
  | some bound => Quantity.le? value bound
  | none => Quantity.le? value value

/-- Whether a value lies in the window; the upper bound is looked at only if the lower one
admits the value. -/
def contains (window : Window α) (value : α) : Except Fault Bool := do
  if ← aboveLower window.lower value then belowUpper window.upper value else return false

/-- A lower bound as data, the negative infinity where the window is open. -/
def reportLower (lower : Option α) : Datum :=
  match lower with
  | some bound => Quantity.report bound
  | none => .float (-1.0 / 0.0)

/-- An upper bound as data, the infinity where the window is open. -/
def reportUpper (upper : Option α) : Datum :=
  match upper with
  | some bound => Quantity.report bound
  | none => .float (1.0 / 0.0)

/-- The window as it is shown, with its name if it has one. -/
def shown (window : Window α) : String :=
  let label := if window.name.truthy then s!"'{window.name.plain}', " else ""
  let lower := (reportLower window.lower).plain
  let upper := (reportUpper window.upper).plain
  s!"ResourceWindow({label}[{lower}, {upper}])"

/-- Whether every resource lies in its window, as far as both lists go; the first one that does not
settles it. -/
def containsAll : List (Window α) → (resources : List α) → Except Fault Bool
  | window :: windows, value :: values => do
    if ← window.contains value then containsAll windows values else return false
  | _, _ => .ok true

end Window

/-- The resources after an arc: the sums with its consumption, as far as both lists go. -/
def extendResources {α : Type} [Quantity α] : (resources consumption : List α) →
    Except Fault (List α)
  | value :: values, used :: uses => do
    let sum ← Quantity.add? value used
    return sum :: (← extendResources values uses)
  | _, _ => .ok []

end PatternCovering
