/-!
# Blanks and lines

Whitespace and line boundaries of text. Three sets matter: the blanks that are stripped from both
ends of a line, the smaller set that may surround a written number, and the characters that end a
line. A carriage return followed by a line feed is one line boundary.
-/

namespace PatternCovering.Text

/-- Blanks beyond the information separators: space, tabulators, line and paragraph ends, and the
spaces of every width. -/
def isNumberBlank (c : Char) : Bool :=
  let code := c.toNat
  (0x9 ≤ code && code ≤ 0xd) || code == 0x20 || code == 0x85 || code == 0xa0 || code == 0x1680 ||
    (0x2000 ≤ code && code ≤ 0x200a) || code == 0x2028 || code == 0x2029 || code == 0x202f ||
    code == 0x205f || code == 0x3000

/-- Blanks, the four information separators included. -/
def isBlank (c : Char) : Bool :=
  isNumberBlank c || (0x1c ≤ c.toNat && c.toNat ≤ 0x1f)

/-- A text without its leading and trailing characters of a class. -/
def stripBy (blank : Char → Bool) (text : List Char) : List Char :=
  ((text.dropWhile blank).reverse.dropWhile blank).reverse

/-- A text without its leading and trailing blanks. -/
def strip (text : List Char) : List Char := stripBy isBlank text

/-- Whether a character ends a line. -/
def isLineEnd (c : Char) : Bool :=
  let code := c.toNat
  (0xa ≤ code && code ≤ 0xd) || (0x1c ≤ code && code ≤ 0x1e) || code == 0x85 || code == 0x2028 ||
    code == 0x2029

/-- The text with every carriage return, alone or before a line feed, read as one line feed. -/
def unifyReturns : List Char → List Char
  | [] => []
  | '\r' :: '\n' :: rest => '\n' :: unifyReturns rest
  | '\r' :: rest => '\n' :: unifyReturns rest
  | c :: rest => c :: unifyReturns rest

/-- The lines of a text in which no carriage return stands before a line feed, without the
characters that end them; text after the last line end is a line unless it is empty. -/
def lines : List Char → List (List Char)
  | [] => []
  | c :: rest =>
    if isLineEnd c then [] :: lines rest
    else
      match lines rest with
      | [] => [[c]]
      | first :: others => (c :: first) :: others

end PatternCovering.Text
