import PatternCovering.Datum

/-!
# References into a model

Variables and constraints of a model are referred to by handles. A caller may hand over a handle of
either kind, or data that is no handle at all; the model sorts them out.
-/

namespace PatternCovering

/-- A position in a model with the name under which it was added. -/
structure Handle where
  index : Nat
  name : Datum

/-- What a caller hands over where a variable or a constraint is expected. -/
inductive Reference where
  | ofVariable (index name : Datum)
  | ofConstraint (index name : Datum)
  | ofData (data : Datum)

/-- A handle handed over as a variable. -/
def Handle.asVariable (handle : Handle) : Reference := .ofVariable (.int handle.index) handle.name

/-- A handle handed over as a constraint. -/
def Handle.asConstraint (handle : Handle) : Reference :=
  .ofConstraint (.int handle.index) handle.name

namespace Reference

/-- A handle of the given kind as it is shown in messages. -/
def shownHandle (kind : String) (index name : Datum) : String :=
  kind ++ "(index=" ++ index.shown ++ ", name=" ++ name.shown ++ ")"

/-- The reference as it is shown in messages. -/
def shown : Reference → String
  | ofVariable index name => shownHandle "VariableHandle" index name
  | ofConstraint index name => shownHandle "ConstraintHandle" index name
  | ofData data => data.shown

end Reference

end PatternCovering
