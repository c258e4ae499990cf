import ExpiringStore.Number.Binary64

/-!
# The shortest decimal of a double

Among the decimals that read back as a given double, `shortest` takes one with
the fewest digits, and of two such the nearer one.  The search is in whole
numbers: the value, the ends of the interval that rounds to it and each
candidate are brought over one denominator.

    shortest d = (n, k)   means   n · 10^k reads back as d, and no shorter decimal does
-/

namespace ExpiringStore.Shortest

def digitCount (n : Nat) : Nat := (Nat.toDigits 10 n).length

/-- The exponent `e` with `10^e ≤ m · 2^q < 10^(e+1)`: for a negative `q` the
value is `m · 5^(-q) · 10^q`. -/
def magnitude (m : Nat) (q : Int) : Int :=
  if q < 0 then (digitCount (m * Nat.pow 5 (-q).toNat) : Int) - 1 + q
  else (digitCount (m * Nat.pow 2 q.toNat) : Int) - 1

/-- A value and the ends of its rounding interval over one denominator, in
units of the decimal grid under test. -/
structure Window where
  low : Nat
  value : Nat
  high : Nat
  denominator : Nat
  closed : Bool

/-- The rounding interval of `m · 2^q` in units of `10^k`.  Below a power of
two the next double is half as far away. -/
def window (m : Nat) (q k : Int) : Window :=
  let e := q - 2
  let unit := Nat.pow 2 e.toNat * Nat.pow 10 (-k).toNat
  let lowGap := if m == Nat.pow 2 52 && q != -1074 then 1 else 2
  { low := (4 * m - lowGap) * unit
    value := 4 * m * unit
    high := (4 * m + 2) * unit
    denominator := Nat.pow 2 (-e).toNat * Nat.pow 10 k.toNat
    closed := m % 2 == 0 }

/-- Does the grid point `n` lie in the window? -/
def Window.holds (w : Window) (n : Nat) : Bool :=
  let p := n * w.denominator
  if w.closed then decide (w.low ≤ p ∧ p ≤ w.high) else decide (w.low < p ∧ p < w.high)

/-- The grid point of the window nearest to the value, a tie going to the even one. -/
def Window.nearest? (w : Window) : Option Nat :=
  let below := w.value / w.denominator
  let above := below + 1
  match w.holds below, w.holds above with
  | true, true =>
    let down := w.value - below * w.denominator
    let up := above * w.denominator - w.value
    some (if down < up then below else if up < down then above
      else if below % 2 == 0 then below else above)
  | true, false => some below
  | false, true => some above
  | false, false => none

/-- Tries ever finer grids, from the first digit on. -/
def search (m : Nat) (q : Int) (k : Int) : Nat → Nat × Int
  | 0 => ((window m q k).value / (window m q k).denominator, k)
  | tries + 1 =>
    match (window m q k).nearest? with
    | some n => (n, k)
    | none => search m q (k - 1) tries

/-- Moves trailing zeros into the exponent. -/
def stripZeros (n : Nat) (k : Int) : Nat → Nat × Int
  | 0 => (n, k)
  | fuel + 1 => if n % 10 == 0 && n != 0 then stripZeros (n / 10) (k + 1) fuel else (n, k)

/-- Digits and exponent of the shortest decimal of `m · 2^q`, for a positive `m`.
Seventeen digits always suffice. -/
def shortest (m : Nat) (q : Int) : Nat × Int :=
  let (n, k) := search m q (magnitude m q) 17
  stripZeros n k 20

/-! ## Writing the digits -/

/-- How a shortest decimal is written. -/
structure Layout where
  /-- Least decimal exponent written positionally. -/
  leastFixed : Int
  /-- Greatest decimal exponent written positionally. -/
  greatestFixed : Int
  /-- Least number of digits of an exponent. -/
  exponentDigits : Nat
  undefined : String
  infinite : String

/-- Positional from `10^-4` to below `10^16`, with a digit after the point;
otherwise an exponent with a sign and at least two digits. -/
def Layout.standard : Layout := ⟨-4, 15, 2, "nan", "inf"⟩

/-- `digits · 10^exponent` without a sign. -/
def Layout.positive (l : Layout) (n : Nat) (k : Int) : String :=
  let digits := Nat.toDigits 10 n
  let point := (digits.length : Int) + k
  let scale := point - 1
  if scale < l.leastFixed || l.greatestFixed < scale then
    let fraction := if digits.length ≤ 1 then [] else '.' :: digits.drop 1
    let power := Nat.toDigits 10 scale.natAbs
    let padding := List.replicate (l.exponentDigits - power.length) '0'
    let sign := if scale < 0 then '-' else '+'
    String.ofList (digits.take 1 ++ fraction ++ ['e', sign] ++ padding ++ power)
  else if point ≤ 0 then
    String.ofList (['0', '.'] ++ List.replicate (-point).toNat '0' ++ digits)
  else if k ≥ 0 then
    String.ofList (digits ++ List.replicate k.toNat '0' ++ ['.', '0'])
  else
    String.ofList (digits.take point.toNat ++ '.' :: digits.drop point.toNat)

def Layout.text (l : Layout) (x : Float) : String :=
  let sign (negative : Bool) := if negative then "-" else ""
  match Binary64.decode x with
  | .undefined => l.undefined
  | .infinite negative => sign negative ++ l.infinite
  | .finite ⟨negative, m, q⟩ =>
    if m == 0 then sign negative ++ "0.0"
    else
      let (n, k) := shortest m q
      sign negative ++ l.positive n k

end ExpiringStore.Shortest

namespace ExpiringStore

def floatText (x : Float) : String := Shortest.Layout.standard.text x

end ExpiringStore
