import ExpiringStore.Number.Basic
import ExpiringStore.Text.Characters

/-!
# Decimal numbers

A decimal keeps the digits and the exponent it was written with, so `1.50` and
`1.5` are equal in value and differ in text.  The text is positional unless the
exponent is positive or the number is smaller than `10^-6`.
-/

namespace ExpiringStore

/-- A decimal number, or one of the values that are not numbers.  Of the latter
some make every use of them an error, and some carry digits. -/
inductive Decimal where
  | finite (negative : Bool) (coefficient : Nat) (exponent : Int)
  | infinite (negative : Bool)
  | undefined (negative signaling : Bool) (digits : Nat)
  deriving DecidableEq, Repr, Inhabited

namespace Decimal

def digitsValue (cs : List Char) : Nat := cs.foldl (fun n c => n * 10 + (c.toNat - 48)) 0

def exponent? : List Char → Option Int
  | [] => some 0
  | e :: rest =>
    if e != 'e' && e != 'E' then none
    else
      let negative := rest.head? == some '-'
      let digits := if negative || rest.head? == some '+' then rest.drop 1 else rest
      if digits.isEmpty || !digits.all Char.isDigit then none
      else
        let n : Int := digitsValue digits
        some (if negative then -n else n)

/-- The digits that follow the word for no number. -/
def afterUndefined? (lower : List Char) : Option (Bool × Nat) :=
  let (signaling, rest) := match lower with
    | 's' :: rest => (true, rest)
    | rest => (false, rest)
  if "nan".toList.isPrefixOf rest && (rest.drop 3).all Char.isDigit then
    some (signaling, digitsValue (rest.drop 3))
  else none

def ofChars? (cs : List Char) : Option Decimal :=
  let negative := cs.head? == some '-'
  let body := if negative || cs.head? == some '+' then cs.drop 1 else cs
  let lower := body.map Char.toLower
  if lower == "inf".toList || lower == "infinity".toList then some (.infinite negative)
  else
    match afterUndefined? lower with
    | some (signaling, digits) => some (.undefined negative signaling digits)
    | none =>
      let whole := body.takeWhile Char.isDigit
      let afterWhole := body.dropWhile Char.isDigit
      let fraction := match afterWhole with
        | '.' :: rest => rest.takeWhile Char.isDigit
        | _ => []
      let tail := match afterWhole with
        | '.' :: rest => rest.dropWhile Char.isDigit
        | rest => rest
      if whole.isEmpty && fraction.isEmpty then none
      else (exponent? tail).map fun e =>
        .finite negative (digitsValue (whole ++ fraction)) (e - fraction.length)

/-- The greatest power of ten that a first digit may stand for. -/
def greatestPower : Int := 999999999999999999

/-- The least power of ten that a last digit may stand for. -/
def leastPower : Int := -1999999999999999997

/-- Are the places of all digits within the limits? -/
def fits : Decimal → Bool
  | .finite _ coefficient exponent =>
    leastPower ≤ exponent &&
      exponent + (Nat.toDigits 10 coefficient).length - 1 ≤ greatestPower
  | _ => true

inductive Refusal where
  | malformed
  | beyondLimits
  deriving DecidableEq, Repr

/-- The decimal that a text writes.  White space at its ends and underscores
anywhere do not count, and digits may be those of any script. -/
def ofText (s : String) : Except Refusal Decimal :=
  let cs := (trimmed isSpacing s.toList).filter (· != '_')
  match ofChars? (cs.map asciiDigit) with
  | none => .error .malformed
  | some d => if d.fits then .ok d else .error .beyondLimits

/-- The text that keeps digits and exponent apart as they are. -/
def text : Decimal → String
  | .undefined negative signaling digits =>
    (if negative then "-" else "") ++ (if signaling then "sNaN" else "NaN") ++
      (if digits == 0 then "" else toString digits)
  | .infinite negative => (if negative then "-" else "") ++ "Infinity"
  | .finite negative coefficient exponent =>
    let digits := Nat.toDigits 10 coefficient
    let point := (digits.length : Int) + exponent
    let sign := if negative then "-" else ""
    let body : List Char :=
      if exponent ≤ 0 && point > -6 then
        if exponent == 0 then digits
        else if point ≤ 0 then '0' :: '.' :: (List.replicate (-point).toNat '0' ++ digits)
        else digits.take point.toNat ++ '.' :: digits.drop point.toNat
      else
        let scale := point - 1
        let fraction := if digits.length ≤ 1 then [] else '.' :: digits.drop 1
        digits.take 1 ++ fraction ++ ['E', if scale < 0 then '-' else '+'] ++
          Nat.toDigits 10 scale.natAbs
    sign ++ String.ofList body

/-- The signed digits once the exponent is brought down to `e`. -/
def scaled (negative : Bool) (coefficient : Nat) (exponent e : Int) : Int :=
  let n : Int := coefficient * Nat.pow 10 (exponent - e).toNat
  if negative then -n else n

/-- The place after that of the first digit. -/
def size (coefficient : Nat) (exponent : Int) : Int :=
  (Nat.toDigits 10 coefficient).length + exponent

/-- Equal in value.  Numbers with first digits at different places differ, and
only otherwise the digits are brought to one exponent. -/
def same : Decimal → Decimal → Bool
  | .finite n c e, .finite n' c' e' =>
    if c == 0 || c' == 0 then c == c'
    else if size c e != size c' e' then false
    else
      let least := min e e'
      scaled n c e least == scaled n' c' e' least
  | .infinite n, .infinite n' => n == n'
  | _, _ => false

/-- The decimal of exactly the value of a number. -/
def ofNumber : Number → Decimal
  | .int n => .finite (n < 0) n.natAbs 0
  | .float x =>
    match Binary64.decode x with
    | .finite d =>
      if d.exponent < 0 then
        .finite d.negative (d.mantissa * Nat.pow 5 d.exponent.natAbs) d.exponent
      else .finite d.negative (d.mantissa * Nat.pow 2 d.exponent.toNat) 0
    | .infinite negative => .infinite negative
    | .undefined => .undefined false false 0

end Decimal

end ExpiringStore
