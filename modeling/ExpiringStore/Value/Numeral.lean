import ExpiringStore.Value.Decimal
import ExpiringStore.Number.Rounding
import ExpiringStore.Text.Quoted

/-!
# Numerals

Whole numbers and doubles as people write them: blanks around them do not
count, the digits may be those of any script, and single underscores may stand
between digits.
-/

namespace ExpiringStore.Numeral

/-- Why a text is no number. -/
inductive Issue where
  | notWhole (text : String)
  | notReal (text : String)
  | tooLong (digits : Nat)
  deriving DecidableEq, Repr

/-- The wording of an issue; only the beginning of a text that is no whole number is shown. -/
def Issue.text : Issue → String
  | .notWhole text =>
    "invalid literal for int() with base 10: " ++ ((Quoted.text text).take 200).toString
  | .notReal text => "could not convert string to float: " ++ Quoted.text text
  | .tooLong digits => tooManyDigits digits

/-- Characters in which each underscore stands between two digits, without the underscores. -/
def joined? (cs : List Char) : Option (List Char) :=
  let before := ' ' :: cs
  let after := cs.drop 1 ++ [' ']
  let fits := ((before.zip cs).zip after).all fun ((a, c), b) =>
    c != '_' || (a.isDigit && b.isDigit)
  if fits then some (cs.filter (· != '_')) else none

/-- Does an underscore stand where none may in the digits and underscores at the head? -/
def isTorn (cs : List Char) : Bool :=
  (joined? (cs.takeWhile fun c => c.isDigit || c == '_')).isNone

def whole (s : String) : Except Issue Int :=
  let cs := (trimBlanks s.toList).map asciiDigit
  let negative := cs.head? == some '-'
  let body := if negative || cs.head? == some '+' then cs.drop 1 else cs
  let digits := (body.takeWhile fun c => c.isDigit || c == '_').filter (· != '_')
  if isTorn body || digits.isEmpty then .error (.notWhole s)
  else if longestNumeral < digits.length then .error (.tooLong digits.length)
  else if !body.all (fun c => c.isDigit || c == '_') then .error (.notWhole s)
  else
    let n : Int := Decimal.digitsValue digits
    .ok (if negative then -n else n)

/-- The double that plain characters write: decimal digits with a point anywhere
among them and an exponent, or a word for infinity or for no number. -/
def double? (cs : List Char) : Option Float :=
  let (negative, body) := match cs with
    | '-' :: rest => (true, rest)
    | '+' :: rest => (false, rest)
    | cs => (false, cs)
  let lower := String.ofList (body.map Char.toLower)
  let sign (x : Float) := if negative then -x else x
  if lower == "inf" || lower == "infinity" then some (sign (1 / 0))
  else if lower == "nan" then some (0 / 0)
  else
    let whole := body.takeWhile Char.isDigit
    let afterWhole := body.dropWhile Char.isDigit
    let (fraction, tail) := match afterWhole with
      | '.' :: rest => (rest.takeWhile Char.isDigit, rest.dropWhile Char.isDigit)
      | rest => ([], rest)
    if whole.isEmpty && fraction.isEmpty then none
    else (Decimal.exponent? tail).map fun e =>
      doubleOfDecimal negative (Decimal.digitsValue (whole ++ fraction)) (e - fraction.length)

/-- The double that a text writes. -/
def real (s : String) : Except Issue Float :=
  match (joined? ((trimBlanks s.toList).map asciiDigit)).bind double? with
  | some x => .ok x
  | none => .error (.notReal s)

end ExpiringStore.Numeral
