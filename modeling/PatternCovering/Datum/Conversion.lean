import PatternCovering.Decimal.Reader
import PatternCovering.Position
import PatternCovering.Table

/-!
# Reading plain data

What plain data stands for where a number, a list or a position is asked for. A text may stand for a
number, and a text or a record for the list of its characters or names.
-/

namespace PatternCovering

namespace Number

/-- The exact value, which infinities and not-a-number do not have. -/
def finiteValue (n : Number) : Except Fault Rat :=
  match n.exactValue? with
  | some value => .ok value
  | none => if n.toFloat.isNaN then .error .integerOfNaN else .error .integerOfInfinity

/-- The nearest integer, a tie going to the even one. -/
def round (n : Number) : Except Fault Int := n.finiteValue.map roundHalfEven

/-- The integer toward zero. -/
def truncated (n : Number) : Except Fault Int := n.finiteValue.map truncate

/-- The number as a double, where it is in range. -/
def float? (n : Number) : Except Fault Float :=
  if n.hasFloat then .ok n.toFloat else .error .integerTooLarge

end Number

namespace Datum

/-- The elements of a list, the characters of a text, the names of a record. -/
def elements : Datum → Except Fault (List Datum)
  | list elements => .ok elements
  | text s => .ok (s.toList.map fun c => text (String.singleton c))
  | record fields => .ok (fields.map fun (name, _) => text name)
  | _ => .error .wrongType

/-- The fault of values that do not go into the given number of places. -/
def misfit (places : Nat) (values : List Datum) : Fault :=
  if values.length < places then .tooFewValues places values.length else .tooManyValues places

/-- A number given as such. -/
def toNumber : Datum → Except Fault Number
  | number n => .ok n
  | _ => .error .wrongType

/-- A text given as such. -/
def toText : Datum → Except Fault String
  | text s => .ok s
  | _ => .error .wrongType

/-- An integer given as such, or a flag that counts as one. -/
def toInt : Datum → Except Fault Int
  | number n =>
    match n.int? with
    | some k => .ok k
    | none => .error .wrongType
  | _ => .error .wrongType

/-- What stands at a position of a list or a text; the entries of a record stand under their
names. -/
def entryAt (given position : Datum) : Except Fault Datum := do
  match given with
  | list elements => PatternCovering.entryAt elements (← position.toInt)
  | text s => return text (String.singleton (← PatternCovering.entryAt s.toList (← position.toInt)))
  | record fields =>
    position.requireKey
    match position with
    | text name =>
      match fields.lookup name with
      | some value => return value
      | none => .error .missingKey
    | _ => .error .missingKey
  | _ => .error .wrongType

/-- Whether an element is in a list, a part in a text, a name in a record. -/
def holds (given element : Datum) : Except Fault Bool := do
  match given with
  | list elements => return elements.any (element.same ·)
  | text s =>
    let part ← element.toText
    return part.isEmpty || 1 < (s.splitOn part).length
  | record fields =>
    element.requireKey
    return fields.any fun (name, _) => element.same (text name)
  | _ => .error .wrongType

/-- The integer that a text writes. -/
def integerOfText (s : String) : Except Fault Int :=
  match Decimal.readInteger s with
  | .value n => .ok n
  | .tooLong digits => .error (.tooManyDigits digits)
  | .malformed => .error (.integerOfText s)

/-- The integer that a number rounds to toward zero, or that a text writes. -/
def integer : Datum → Except Fault Int
  | number n => n.truncated
  | text s => integerOfText s
  | _ => .error .wrongType

/-- The double that a number is nearest to, or that a text writes. -/
def real : Datum → Except Fault Float
  | number n => n.float?
  | text s =>
    match Decimal.readReal? s with
    | some x => .ok x
    | none => .error (.realOfText s)
  | _ => .error .wrongType

/-- The integer that the data is equal to, or none if it is a flag, a fraction or a text of an
integer; data that no integer can be read from is a fault. -/
def whole? : Datum → Except Fault (Option Int)
  | number (.flag _) => .ok none
  | number n => do
    let k ← n.truncated
    return if (Number.int k).eq n then some k else none
  | text s => do
    let _ ← integerOfText s
    return none
  | _ => .error .wrongType

/-- Refuses data that has no named entries. -/
def requireRecord : Datum → Except Fault Unit
  | record _ => .ok ()
  | _ => .error .missingPart

/-- Refuses a record with an entry of a name that is not known. -/
def requireKnown (given : Datum) (known : List String) : Except Fault Unit :=
  match given with
  | record fields =>
    if fields.all fun (name, _) => known.contains name then .ok () else .error .wrongType
  | _ => .error .wrongType

/-- The data unless it is absent or nothing. -/
def present? : Option Datum → Option Datum
  | some null => none
  | given => given

end Datum

namespace Table

/-- Adds pairs from the one at `first` on, each in its turn. -/
def addPairsFrom (first : Nat) : Table Datum → List Datum → Except Fault (Table Datum)
  | table, [] => .ok table
  | table, given :: rest => do
    match ← given.elements with
    | [key, value] => addPairsFrom (first + 1) (← table.insert key value) rest
    | parts => .error (.notPair first parts.length)

/-- Adds the entries of a record, or pairs of keys and values of which a later one wins. -/
def update (table : Table Datum) : Datum → Except Fault (Table Datum)
  | .record fields =>
    .ok (fields.foldl (fun known (name, value) => known.set (.text name) value) table)
  | given => do
    addPairsFrom 0 table (← given.elements)

end Table

end PatternCovering
