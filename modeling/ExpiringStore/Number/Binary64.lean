/-!
# Double-precision numbers, read exactly

A double is a sign, a whole mantissa and a power of two.  `decode` reads these
off the bits, and everything exact about a double (its comparison with a whole
number, its truncation, its shortest decimal) starts from there.

    decode x = .finite ⟨n, m, q⟩   means   x = ± m · 2^q
-/

namespace ExpiringStore

/-- The value `± mantissa · 2^exponent`. -/
structure Dyadic where
  negative : Bool
  mantissa : Nat
  exponent : Int
  deriving DecidableEq, Repr

/-- What the bits of a double say. -/
inductive Binary64 where
  | finite (value : Dyadic)
  | infinite (negative : Bool)
  | undefined
  deriving DecidableEq, Repr

namespace Binary64

/-- Reads sign, exponent and mantissa off the bits; subnormals share the least
exponent and lack the hidden bit. -/
def decode (x : Float) : Binary64 :=
  let bits : Nat := x.toBits.toNat
  let negative := bits / Nat.pow 2 63 == 1
  let biased : Nat := bits / Nat.pow 2 52 % Nat.pow 2 11
  let fraction : Nat := bits % Nat.pow 2 52
  if biased == 2047 then
    if fraction == 0 then .infinite negative else .undefined
  else if biased == 0 then .finite ⟨negative, fraction, -1074⟩
  else .finite ⟨negative, fraction + Nat.pow 2 52, (biased : Int) - 1075⟩

end Binary64

namespace Dyadic

def signed (d : Dyadic) : Int :=
  if d.negative then -(d.mantissa : Int) else d.mantissa

def numerator (d : Dyadic) : Int := d.signed * Nat.pow 2 d.exponent.toNat

/-- A power of two: the value is `numerator / denominator`. -/
def denominator (d : Dyadic) : Nat := Nat.pow 2 (-d.exponent).toNat

/-- The whole part, toward zero. -/
def truncate (d : Dyadic) : Int := d.numerator.tdiv d.denominator

def isWhole (d : Dyadic) : Bool := d.numerator % d.denominator == 0

/-- Exact order of a value and a whole number. -/
def compareInt (d : Dyadic) (n : Int) : Ordering :=
  compare d.numerator (n * d.denominator)

end Dyadic

/-- The double nearest to a whole number, ties to even; none beyond the largest
double.  A number with more binary digits than that is told apart at once. -/
def doubleOfInt? (n : Int) : Option Float :=
  if 1024 ≤ Nat.log2 n.natAbs then none
  else
    let magnitude := Float.ofScientific n.natAbs false 0
    if magnitude.isInf then none else some (if n < 0 then -magnitude else magnitude)

end ExpiringStore
