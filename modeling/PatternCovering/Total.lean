/-!
# Totals and powers

Sums of lists of natural numbers, and powers of two and of ten.
-/

namespace PatternCovering

/-- The sum of a list of natural numbers. -/
def total : List Nat → Nat
  | [] => 0
  | n :: rest => n + total rest

/-- The power of two with the given exponent. -/
def powTwo (exponent : Nat) : Nat := Nat.pow 2 exponent

/-- The power of ten with the given exponent. -/
def powTen (exponent : Nat) : Nat := Nat.pow 10 exponent

end PatternCovering
