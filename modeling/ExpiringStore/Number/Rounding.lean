import ExpiringStore.Number.Binary64

/-!
# Rounding to the nearest, ties to even

`roundRatio n d` is the whole number nearest to `n / d`; a tie goes to the even
neighbour.  Decimal places of a double are rounded from its exact value, so no
double-precision step can tip a tie.
-/

namespace ExpiringStore

/-- The whole number nearest to `n / d`, a tie going to the even one. -/
def roundRatio (n : Int) (d : Nat) : Int :=
  let below := n.fdiv d
  let twice := 2 * (n - below * d)
  if twice < d then below
  else if (d : Int) < twice then below + 1
  else if below % 2 == 0 then below else below + 1

/-- The whole number nearest to `(a / b) / 2^e`. -/
def roundScaled (a b : Nat) (e : Int) : Nat :=
  (roundRatio (a * Nat.pow 2 (-e).toNat) (b * Nat.pow 2 e.toNat)).toNat

/-- The exponent of the last place of the double nearest to `a / b`. -/
def lastPlace (a b : Nat) : Int :=
  let k : Int := (Nat.log2 a : Int) - Nat.log2 b
  let isBelow := a * Nat.pow 2 (-k).toNat < b * Nat.pow 2 k.toNat
  max (if isBelow then k - 53 else k - 52) (-1074)

/-- The double nearest to the quotient of two whole numbers, the second not
zero.  A mantissa of 53 digits that rounds up to the next power of two carries
into the exponent by itself. -/
def doubleOfRatio (n d : Int) : Float :=
  let a := n.natAbs
  let b := d.natAbs
  let sign : Nat := if (n < 0) != (d < 0) then Nat.pow 2 63 else 0
  let e := lastPlace a b
  let magnitude : Nat :=
    if a == 0 then 0
    else if 972 ≤ e then 2047 * Nat.pow 2 52
    else (e + 1074).toNat * Nat.pow 2 52 + roundScaled a b e
  Float.ofBits (UInt64.ofNat (sign + magnitude))

/-- `m · 10^e` as the nearest double, for a mantissa of either sign.  Exponents
that no double reaches are cut off before any power is computed. -/
def doubleOfDecimal (negative : Bool) (m : Nat) (e : Int) : Float :=
  let size := (Nat.toDigits 10 m).length
  let magnitude : Float :=
    if m == 0 then 0
    else if e + size > 400 then 1 / 0
    else if e + size < -400 then 0
    else if e < 0 then Float.ofScientific m true (-e).toNat
    else Float.ofScientific m false e.toNat
  if negative then -magnitude else magnitude

/-- The double nearest to a double rounded to some decimal places.  Zero keeps
the sign, and what is not finite stays as it is. -/
def roundPlaces (x : Float) (places : Nat) : Float :=
  match Binary64.decode x with
  | .finite d =>
    let n := roundRatio (d.numerator.natAbs * Nat.pow 10 places) d.denominator
    doubleOfDecimal d.negative n.toNat (-(places : Int))
  | _ => x

/-- A finite double written with a fixed number of decimal places. -/
def fixedText (x : Float) (places : Nat) : String :=
  match Binary64.decode x with
  | .finite d =>
    let n := (roundRatio (d.numerator.natAbs * Nat.pow 10 places) d.denominator).toNat
    let whole := toString (n / Nat.pow 10 places)
    let rest := Nat.toDigits 10 (n % Nat.pow 10 places)
    let sign := if d.negative then "-" else ""
    if places == 0 then sign ++ whole
    else sign ++ whole ++ "." ++ String.ofList (List.replicate (places - rest.length) '0' ++ rest)
  | .infinite negative => if negative then "-inf" else "inf"
  | .undefined => "nan"

end ExpiringStore
