import PatternCovering.Decimal.Shortest

/-!
# Written numbers

Three texts of a double: the shortest one that reads back, a fixed number of places, and one digit
before the point with a power of ten. The last two round the exact value, a tie going to the even
neighbour. The sign of a negative zero is kept, and the values that are no numbers are written
`inf`, `-inf` and `nan`.
-/

namespace PatternCovering.Decimal

/-- The least power of ten of a leading digit that is written without an exponent. -/
def leastPositional : Int := -4

/-- The greatest power of ten of a leading digit that is written without an exponent. -/
def greatestPositional : Int := 15

/-- The most digits of an integer that is written, or read from a text. -/
def mostIntegerDigits : Nat := 4300

/-- The decimal digits of a natural number. -/
def digitsOf (n : Nat) : List Char := Nat.toDigits 10 n

/-- An exponent mark with its sign and at least two digits. -/
def exponentText (power : Int) : List Char :=
  let digits := digitsOf power.natAbs
  'e' :: (if power < 0 then '-' else '+') :: List.replicate (2 - digits.length) '0' ++ digits

/-- Digits with a point after the first `whole` ones, padded by zeros on either side. -/
def placePoint (digits : List Char) (whole : Int) : List Char :=
  if whole ≤ 0 then '0' :: '.' :: List.replicate (-whole).toNat '0' ++ digits
  else
    let count := whole.toNat
    let padded := digits ++ List.replicate (count - digits.length) '0'
    let fraction := padded.drop count
    padded.take count ++ '.' :: (if fraction.isEmpty then ['0'] else fraction)

/-- A decimal without trailing zeros: positional where its size allows, else with an exponent. -/
def plainText (decimal : Decimal) : List Char :=
  let digits := digitsOf decimal.digits
  let power := decimal.exponent + digits.length - 1
  if leastPositional ≤ power ∧ power ≤ greatestPositional then placePoint digits (power + 1)
  else
    match digits with
    | [] => []
    | [digit] => digit :: exponentText power
    | digit :: fraction => digit :: '.' :: fraction ++ exponentText power

/-- The text of a double whose finite magnitudes are written by `write`. -/
def textWith (write : Dyadic → List Char) (x : Float) : String :=
  match Binary.ofFloat x with
  | .nan => "nan"
  | .infinite negative => if negative then "-inf" else "inf"
  | .finite negative magnitude =>
    String.ofList (if negative then '-' :: write magnitude else write magnitude)

/-- The shortest text that reads back as the double. -/
def shortestText (x : Float) : String :=
  textWith (fun d => if d.significand = 0 then ['0', '.', '0'] else plainText d.shortest) x

/-- A non-negative quotient with the given positive number of places. -/
def fixedDigits (places num den : Nat) : List Char :=
  let digits := digitsOf (divHalfEven (num * powTen places) den)
  let padded := List.replicate (places + 1 - digits.length) '0' ++ digits
  padded.take (padded.length - places) ++ '.' :: padded.drop (padded.length - places)

/-- A double with the given positive number of places. -/
def fixedText (places : Nat) (x : Float) : String :=
  textWith (fun d => fixedDigits places d.quotient.1 d.quotient.2) x

/-- A non-negative quotient with one digit before the point, the given positive number of places
and a power of ten. -/
def scientificDigits (places num den : Nat) : List Char :=
  let power := if num = 0 then 0 else leadingPower num den
  let (n, d) := scaleByTen num den ((places : Int) - power)
  let rounded := divHalfEven n d
  let (digits, exponent) :=
    if rounded = powTen (places + 1) then (powTen places, power + 1) else (rounded, power)
  let padded := digitsOf digits ++ List.replicate (places + 1 - digitCount digits) '0'
  padded.take 1 ++ '.' :: padded.drop 1 ++ exponentText exponent

/-- A double with one digit before the point, the given positive number of places and a power of
ten. -/
def scientificText (places : Nat) (x : Float) : String :=
  textWith (fun d => scientificDigits places d.quotient.1 d.quotient.2) x

end PatternCovering.Decimal
