import PatternCovering.Table

/-!
# Fingerprints

A fingerprint stands for a key in a hashed collection: equal keys have equal fingerprints, whatever
their forms, and different keys may share one. The fingerprint of a number is its residue modulo a
prime, where a fraction is a quotient of residues; the value that is reserved for failure is left
out.
-/

namespace PatternCovering

/-- The prime modulo which numbers are taken. -/
def fingerprintModulus : Nat := powTwo 61 - 1

/-- The residue of `n / 2 ^ exponent`; as `2 ^ 61` leaves the residue one, dividing by a power of
two is multiplying by another one. -/
def dyadicResidue (n exponent : Nat) : Nat :=
  n * powTwo ((61 - exponent % 61) % 61) % fingerprintModulus

/-- The residue of an exact value whose denominator is a power of two, with its sign. -/
def residue (value : Rat) : Int :=
  let size : Int := dyadicResidue value.num.natAbs value.den.log2
  let signed := if value < 0 then -size else size
  if signed = -1 then -2 else signed

/-- The residue that stands for an infinity. -/
def infinityResidue : Int := 314159

/-- The fingerprint of a number, none for not-a-number. -/
def Number.fingerprint? (n : Number) : Option Int :=
  match n.exactValue? with
  | some value => some (residue value)
  | none =>
    if n.toFloat.isNaN then none
    else some (if n.toFloat < 0.0 then -infinityResidue else infinityResidue)

/-- Whether a key is the empty text or zero, which share a fingerprint. -/
def Datum.isVoid : Datum → Bool
  | .text s => s.isEmpty
  | .number n => n.fingerprint? == some 0
  | _ => false

/-- Whether two keys have the same fingerprint. Data of different kinds does not, apart from the
empty text and zero, and neither do different texts. -/
def Datum.sharesFingerprint (left right : Datum) : Except Fault Bool := do
  left.requireKey
  right.requireKey
  match left, right with
  | .number m, .number n =>
    match m.fingerprint?, n.fingerprint? with
    | some p, some q => return p == q
    | _, _ => return m.same n
  | _, _ => return left.same right || (left.isVoid && right.isVoid)

end PatternCovering
