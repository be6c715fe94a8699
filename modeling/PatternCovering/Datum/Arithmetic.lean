import PatternCovering.Datum.Conversion

/-!
# Arithmetic and order of plain data

Data is kept as it was given until something is computed with it, and only then its form matters.
Numbers combine as numbers. Texts and lists can be joined, repeated and compared among themselves.
Everything else is a fault of the operation.
-/

namespace PatternCovering.Datum

/-- A result of two numbers that can be combined. -/
def combine (operation : Number → Number → Number) (m n : Number) : Except Fault Datum :=
  if m.compatible n then .ok (number (operation m n)) else .error .integerTooLarge

/-- The sum of two numbers, or two texts or two lists one after the other. -/
def add : Datum → Datum → Except Fault Datum
  | number m, number n => combine Number.add m n
  | text s, text t => .ok (text (s ++ t))
  | list xs, list ys => .ok (list (xs ++ ys))
  | _, _ => .error .wrongType

/-- The difference of two numbers. -/
def sub : Datum → Datum → Except Fault Datum
  | number m, number n => combine Number.sub m n
  | _, _ => .error .wrongType

/-- The most copies that a list can have. -/
def mostCopies : Nat := powTwo 63 - 1

/-- The most entries of a list that is made from nothing but its size. -/
def mostEntries : Nat := powTen 8

/-- The number of entries or characters from which on there is no room for copies. -/
def mostRepeated : Nat := powTwo 34

/-- The longest text and the longest list that copies are put together to. A longer one is refused
like data of the wrong form: it could only be added to a number, which is refused as well. -/
def longestRepeated : Nat := powTen 6

/-- The number of copies that a number asks for, none if it is negative. -/
def copies (n : Number) : Except Fault Nat :=
  match n.int? with
  | none => .error .wrongType
  | some count =>
    if count < -mostCopies - 1 ∨ mostCopies < count then .error .sizeTooLarge
    else .ok count.toNat

/-- The size of a list that data asks for. -/
def size : Datum → Except Fault Nat
  | number n => do
    let count ← copies n
    if mostEntries < count then .error .outOfMemory else return count
  | _ => .error .wrongType

/-- Refuses copies that are too long. -/
def requireRoom (length : Nat) : Except Fault Unit :=
  if mostRepeated ≤ length then .error .outOfMemory
  else if longestRepeated < length then .error .wrongType
  else .ok ()

/-- Copies of a text one after the other. -/
def repeatText (s : String) (n : Number) : Except Fault Datum := do
  let count ← copies n
  if mostCopies < count * s.length then .error .textTooLong
  else
    requireRoom (count * s.length)
    return text (if s.isEmpty then s else String.join (List.replicate count s))

/-- Copies of a list one after the other. -/
def repeatList (xs : List Datum) (n : Number) : Except Fault Datum := do
  let count ← copies n
  requireRoom (count * xs.length)
  return list (if xs.isEmpty then xs else (List.replicate count xs).flatten)

/-- The product of two numbers, or copies of a text or a list. -/
def mul : Datum → Datum → Except Fault Datum
  | number m, number n => combine Number.mul m n
  | number n, text s | text s, number n => repeatText s n
  | number n, list xs | list xs, number n => repeatList xs n
  | _, _ => .error .wrongType

/-- The number with the opposite sign. -/
def neg : Datum → Except Fault Datum
  | number n => .ok (number n.neg)
  | _ => .error .wrongType

mutual

/-- Whether data comes before other data, or, if equality counts, not after it. Texts are compared
by the codes of their characters, lists by the first elements in which they differ. -/
def precedes (orEqual : Bool) : Datum → Datum → Except Fault Bool
  | number m, number n => .ok (if orEqual then m.le n else m.lt n)
  | text s, text t => .ok (if orEqual then decide (s ≤ t) else decide (s < t))
  | list xs, list ys => precedesAll orEqual xs ys
  | _, _ => .error .wrongType

/-- Whether a list comes before another one, or, if equality counts, not after it. -/
def precedesAll (orEqual : Bool) : List Datum → List Datum → Except Fault Bool
  | [], ys => .ok (orEqual || !ys.isEmpty)
  | _ :: _, [] => .ok false
  | x :: xs, y :: ys => if same x y then precedesAll orEqual xs ys else precedes orEqual x y

end

/-- Whether data comes before other data. -/
def lt (left right : Datum) : Except Fault Bool := precedes false left right

/-- Whether data does not come after other data. -/
def le (left right : Datum) : Except Fault Bool := precedes true left right

/-- A number as a real number. -/
def measure : Datum → Except Fault Datum
  | number n => do
    return float (← n.float?)
  | _ => .error .wrongType

/-- A number rounded to the nearest integer, a tie going to the even one. -/
def round : Datum → Except Fault Int
  | number n => n.round
  | _ => .error .wrongType

instance : Position Datum where
  ofInt := int
  toInt := toInt
  lt := lt
  le := le
  eq := eq
  next given := ((given.add (int 1)).toOption).getD null
  report := id

end PatternCovering.Datum
