import PatternCovering.Text.Printable

/-!
# Quoted text

Text between quotation marks on one line. Single marks are used unless the text holds a single mark
and no double one. The mark in use and the backslash are escaped by a backslash, and a character
that is not printable is written by its code.
-/

namespace PatternCovering.Text

/-- A number below `16 ^ width` in exactly `width` hexadecimal digits. -/
def hexadecimal (width code : Nat) : List Char :=
  let digits := Nat.toDigits 16 code
  List.replicate (width - digits.length) '0' ++ digits

/-- The escape of a character by its code, as short as the code allows. -/
def escapeCode (c : Char) : List Char :=
  let code := c.toNat
  if code ≤ 0xff then '\\' :: 'x' :: hexadecimal 2 code
  else if code ≤ 0xffff then '\\' :: 'u' :: hexadecimal 4 code
  else '\\' :: 'U' :: hexadecimal 8 code

/-- One character as written between the given quotation marks. -/
def escapeChar (mark c : Char) : List Char :=
  if c = mark || c = '\\' then ['\\', c]
  else if c = '\n' then ['\\', 'n']
  else if c = '\t' then ['\\', 't']
  else if c = '\r' then ['\\', 'r']
  else if isPrintable c then [c]
  else escapeCode c

/-- The quotation mark for a text: single, unless only the double one is free. -/
def quoteMark (text : List Char) : Char :=
  if text.contains '\'' && !text.contains '"' then '"' else '\''

/-- A text between quotation marks. -/
def quoted (text : String) : String :=
  let mark := quoteMark text.toList
  String.ofList (mark :: text.toList.flatMap (escapeChar mark) ++ [mark])

end PatternCovering.Text
