import PatternCovering.Datum.Conversion

/-!
# Fields of records

A record is read field by field, each in the form in which it is needed. An absent field and a field
that holds nothing are alike unless a function says otherwise.
-/

namespace PatternCovering.Datum

/-- A field of a record, nothing if it is absent. -/
def get (given : Datum) (name : String) : Datum := (given.field? name).getD null

/-- A field of a record, a default if it is absent. -/
def getOr (given : Datum) (name : String) (fallback : Datum) : Datum :=
  (given.field? name).getD fallback

/-- A field that must be given. -/
def required (given : Datum) (name : String) : Except Fault Datum :=
  match given.field? name with
  | some value => .ok value
  | none => .error .wrongType

/-- A field that must be a text. -/
def textField (given : Datum) (name : String) : Except Fault String := (given.get name).toText

/-- The elements of a field, none if it is absent. -/
def elementsField (given : Datum) (name : String) : Except Fault (List Datum) :=
  match given.field? name with
  | none => .ok []
  | some value => value.elements

/-- A field as a truth value, a default if it is absent. -/
def flagField (given : Datum) (name : String) (fallback : Bool) : Bool :=
  match given.field? name with
  | none => fallback
  | some value => value.truthy

/-- A field unless it is absent or nothing. -/
def presentField? (given : Datum) (name : String) : Option Datum := present? (given.field? name)

/-- A field as plain text, unless it is absent or nothing. -/
def plainField? (given : Datum) (name : String) : Option String :=
  (given.presentField? name).map plain

/-- The value that a name stands for; only a key can be looked up. -/
def named {β : Type} (given : Datum) (ofName? : String → Option β) : Except Fault β := do
  given.requireKey
  match given with
  | text name =>
    match ofName? name with
    | some known => return known
    | none => .error .missingKey
  | _ => .error .missingKey

/-- The value that the name in a field stands for, a default if the field is absent. -/
def namedField {β : Type} (given : Datum) (name : String) (ofName? : String → Option β)
    (fallback : β) : Except Fault β :=
  match given.field? name with
  | none => .ok fallback
  | some value => value.named ofName?

end PatternCovering.Datum
