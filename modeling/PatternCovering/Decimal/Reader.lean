import PatternCovering.Decimal.Written
import PatternCovering.Text.Blank
import PatternCovering.Text.Digit

/-!
# Reading numbers

The grammar of written numbers: blanks around it, an optional sign, digits of any decimal script
with single underscores between them, and for real numbers a point, an exponent, or one of the words
for infinity and not-a-number in any case. A real number is read as the double nearest to it.
-/

namespace PatternCovering.Decimal

/-- A run of digits, most significant first, with single underscores between digits, and the text
after it. -/
def spanDigits : List Char → List Nat × List Char
  | c :: '_' :: next :: rest =>
    match Text.digitValue? c, Text.digitValue? next with
    | some digit, some _ =>
      let (digits, after) := spanDigits (next :: rest)
      (digit :: digits, after)
    | some digit, none => ([digit], '_' :: next :: rest)
    | none, _ => ([], c :: '_' :: next :: rest)
  | c :: rest =>
    match Text.digitValue? c with
    | some digit =>
      let (digits, after) := spanDigits rest
      (digit :: digits, after)
    | none => ([], c :: rest)
  | [] => ([], [])

/-- The number with the given digits, most significant first. -/
def ofDigits (digits : List Nat) : Nat := digits.foldl (fun n digit => 10 * n + digit) 0

/-- Whether a leading minus sign stands before a text, and the text after an optional sign. -/
def spanSign : List Char → Bool × List Char
  | '-' :: rest => (true, rest)
  | '+' :: rest => (false, rest)
  | text => (false, text)

/-- What a text says where an integer is expected. -/
inductive IntegerReading where
  | value (n : Int)
  | tooLong (digits : Nat)
  | malformed

/-- An integer written in decimal digits. Digits that are too many are noticed before anything that
follows them, other than a misplaced underscore. -/
def readInteger (text : String) : IntegerReading :=
  let (negative, unsigned) := spanSign (text.toList.dropWhile Text.isNumberBlank)
  match spanDigits unsigned with
  | ([], _) | (_, '_' :: _) => .malformed
  | (digits, after) =>
    if mostIntegerDigits < digits.length then .tooLong digits.length
    else if after.all Text.isNumberBlank then
      .value (if negative then -(ofDigits digits : Int) else ofDigits digits)
    else .malformed

/-- The words for values that are no finite numbers, in lower case. -/
def wordValue? (word : String) : Option Float :=
  if word = "inf" || word = "infinity" then some (1.0 / 0.0)
  else if word = "nan" then some (0.0 / 0.0)
  else none

/-- The double nearest to `digits * 10 ^ exponent`.

Powers far outside the range of doubles are not computed. -/
def nearestOf (digits : Nat) (exponent : Int) : Float :=
  let size := exponent + digitCount digits
  if digits = 0 ∨ size < -400 then 0.0
  else if 400 < size then 1.0 / 0.0
  else
    let (num, den) := scaleByTen digits 1 exponent
    nearestFloat num den

/-- The exponent part of a real number: nothing, or a mark, an optional sign and digits. -/
def readExponent? : List Char → Option Int
  | [] => some 0
  | mark :: rest =>
    if mark = 'e' || mark = 'E' then
      let (negative, unsigned) := spanSign rest
      match spanDigits unsigned with
      | ([], _) => none
      | (digits, []) => some (if negative then -(ofDigits digits : Int) else ofDigits digits)
      | (_, _ :: _) => none
    else none

/-- A real number without its sign. -/
def readMagnitude? (text : List Char) : Option Float :=
  match wordValue? (String.ofList (text.map Char.toLower)) with
  | some value => some value
  | none =>
    let (whole, afterWhole) := spanDigits text
    let (fraction, afterFraction) :=
      match afterWhole with
      | '.' :: rest => spanDigits rest
      | _ => ([], afterWhole)
    if whole.isEmpty && fraction.isEmpty then none
    else
      (readExponent? afterFraction).map fun exponent =>
        nearestOf (ofDigits (whole ++ fraction)) (exponent - fraction.length)

/-- A real number in decimal digits, or a word for infinity or not-a-number. -/
def readReal? (text : String) : Option Float :=
  let (negative, unsigned) := spanSign (Text.stripBy Text.isNumberBlank text.toList)
  (readMagnitude? unsigned).map fun value => if negative then -value else value

end PatternCovering.Decimal
