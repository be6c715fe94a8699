import PatternCovering.Datum.Conversion

/-!
# Written data

An integer of too many digits cannot be written at all. In numeric formats, numbers are written with
a fixed number of places or with a power of ten. In a field of a text, a text in place of a number
is a fault of its own; in a logged message every datum that is no number is a fault alike.
-/

namespace PatternCovering.Datum

/-- Whether the data is an integer of more digits than may be written. -/
def isTooLong : Datum → Bool
  | number n => n.isTooLong
  | _ => false

/-- The data as plain text, unless it is an integer of too many digits. -/
def written (given : Datum) : Except Fault String :=
  if given.isTooLong then .error .integerTooLong else .ok given.plain

/-- A number as a double that is to be written in the format of a code. -/
def formatted (code : Char) : Datum → Except Fault Float
  | number n => n.float?
  | text _ => .error (.formatOfText code)
  | _ => .error .wrongType

/-- A number with the given positive number of places. -/
def fixed (places : Nat) (given : Datum) : Except Fault String := do
  return Decimal.fixedText places (← given.formatted 'f')

/-- A number with one digit before the point, the given number of places and a power of ten. -/
def scientific (places : Nat) (given : Datum) : Except Fault String := do
  return Decimal.scientificText places (← given.formatted 'e')

/-- A number with the given positive number of places in a logged message. -/
def logged (places : Nat) (given : Datum) : Except Fault String := do
  return Decimal.fixedText places (← (← given.toNumber).float?)

/-- A number without its fraction in a logged message. -/
def loggedWhole (given : Datum) : Except Fault String := do
  (int (← (← given.toNumber).truncated)).written

end PatternCovering.Datum
