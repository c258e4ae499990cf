import ExpiringStore.Number.Rounding
import ExpiringStore.Number.Shortest

/-!
# Doubles with a chosen number of digits

A double is written with a number of places after the point, with an exponent,
or in whichever of the two ways is shorter.  The digits are rounded from the
exact value, ties to even.
-/

namespace ExpiringStore.Notation

/-- The digits before and after the point, and the power of ten if it is written. -/
structure Digits where
  whole : List Char
  fraction : List Char
  power : Option Int := none

/-- `places` digits after the point. -/
def fixed (a b places : Nat) : Digits :=
  let n := (roundRatio (a * Nat.pow 10 places) b).toNat
  let rest := Nat.toDigits 10 (n % Nat.pow 10 places)
  { whole := Nat.toDigits 10 (n / Nat.pow 10 places)
    fraction := if places == 0 then [] else List.replicate (places - rest.length) '0' ++ rest }

/-- One digit before the point and `places` after it, for a value `m · 2^q`. -/
def scientific (m : Nat) (q : Int) (places : Nat) : Digits :=
  if m == 0 then ⟨['0'], List.replicate places '0', some 0⟩
  else
    let e := Shortest.magnitude m q
    let shift := (places : Int) - e
    let n := (roundRatio (m * Nat.pow 2 q.toNat * Nat.pow 10 shift.toNat)
      (Nat.pow 2 (-q).toNat * Nat.pow 10 (-shift).toNat)).toNat
    let digits := Nat.toDigits 10 n
    let carried : Int := digits.length - (places + 1)
    ⟨digits.take 1, (digits.drop 1).take places, some (e + carried)⟩

/-- No zeros at the end of the fraction. -/
def Digits.stripped (d : Digits) : Digits :=
  { d with fraction := (d.fraction.reverse.dropWhile (· == '0')).reverse }

/-- So many digits that count: positional unless the power of ten is below -4
or beyond the digits. -/
def general (m : Nat) (q : Int) (digits : Nat) : Digits :=
  let digits := max 1 digits
  let s := scientific m q (digits - 1)
  let e := s.power.getD 0
  if -4 ≤ e && e < digits then
    fixed (m * Nat.pow 2 q.toNat) (Nat.pow 2 (-q).toNat) (digits - 1 - e).toNat
  else s

/-- The digits as text; the point stands also without a fraction if it is asked for. -/
def Digits.text (point : Bool) (d : Digits) : List Char :=
  let fraction := if d.fraction.isEmpty && !point then [] else '.' :: d.fraction
  let power := match d.power with
    | none => []
    | some e =>
      let digits := Nat.toDigits 10 e.natAbs
      ['e', if e < 0 then '-' else '+'] ++ List.replicate (2 - digits.length) '0' ++ digits
  d.whole ++ fraction ++ power

/-- The ways to write a double. -/
inductive Style where
  | fixed
  | scientific
  | general
  deriving DecidableEq, Repr

/-- The text of a double, and is it negative?  The alternate form keeps the
point and the zeros that would be left out. -/
def write (s : Style) (alternate : Bool) (precision : Nat) (x : Float) : Bool × List Char :=
  match Binary64.decode x with
  | .undefined => (false, "nan".toList)
  | .infinite negative => (negative, "inf".toList)
  | .finite ⟨negative, m, q⟩ =>
    let digits := match s with
      | .fixed => Notation.fixed (m * Nat.pow 2 q.toNat) (Nat.pow 2 (-q).toNat) precision
      | .scientific => Notation.scientific m q precision
      | .general =>
        let d := Notation.general m q precision
        if alternate then d else d.stripped
    (negative, digits.text alternate)

end ExpiringStore.Notation
