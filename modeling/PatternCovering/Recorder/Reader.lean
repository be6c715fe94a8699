import PatternCovering.Datum.Field
import PatternCovering.Recorder

/-!
# Scripts of a recording engine from plain data

A scene is a list of its status, its objective, its duals and, where it has them, the values of the
variables. All but the status is looked into only when it is played.
-/

namespace PatternCovering

/-- The values of variables that a list gives, zero beyond its end; nothing stands for the usual
values. -/
def valuesOf (given column : Datum) : Except Fault Datum := do
  match given with
  | .null => usualValue column
  | _ =>
    if ← column.lt (.int (← given.elements).length) then given.entryAt column
    else return Quantity.zero

/-- A scene from plain data. -/
def Scene.read (given : Datum) : Except Fault (Scene Datum) := do
  let status ← (← given.entryAt (.int 0)).named Status.ofName?
  return {
    status
    objective := do
      return Datum.present? (some (← given.entryAt (.int 1)))
    dual row := do
      (← given.entryAt (.int 2)).entryAt row
    primal :=
      match given with
      | .list (_ :: _ :: _ :: values :: _) => some (valuesOf values)
      | _ => none }

/-- A recording engine from plain data; without a script, every solve is optimal at zero. -/
def Recorder.read (given : Datum) : Except Fault (Recorder Datum) := do
  given.requireRecord
  let script ← (given.getOr "script"
    (.list [.list [.text Status.optimal.name, Quantity.zero, .list []]])).elements
  return { script := ← script.mapM Scene.read, primal := valuesOf (given.get "primal") }

end PatternCovering
