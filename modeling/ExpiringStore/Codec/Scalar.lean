import ExpiringStore.Value.Basic
import ExpiringStore.Value.Numeral
import ExpiringStore.Text.Utf8

/-!
# Reading scalars leniently

Numbers and truth values are taken from any scalar that means one without
loss: a truth value or a whole double is a whole number, and texts are read by
a fixed grammar for each type.  A refusal says in which way the value misses
the type.
-/

namespace ExpiringStore

/-- In which way a value misses a type. -/
inductive Mismatch where
  | integerType
  | integerText
  | integerSize
  | integerFraction
  | notFinite
  | numberType
  | numberText
  | truthType
  | truthText
  | textType
  | textOctets
  | dateType
  deriving DecidableEq, Repr

namespace Scalar

/-- The text that a scalar carries, if it is one that carries a text: a text, a
member's text, or octets.  Octets that are no text miss the type as malformed
text does. -/
def carried? (malformed : Mismatch) : Value → Except Mismatch (Option String)
  | .str s => .ok (some s)
  | .member m => .ok (some m.text)
  | .bytes b =>
    match Utf8.decode b with
    | .ok s => .ok (some s)
    | .error _ => .error malformed
  | _ => .ok none

/-! ## Whole numbers -/

/-- Characters without their underscores, none of which may stand at an end or
next to another. -/
def withoutUnderscores? (cs : List Char) : Option (List Char) :=
  let doubled := (cs.zip (cs.drop 1)).any fun (a, b) => a == '_' && b == '_'
  if cs.head? == some '_' || cs.getLast? == some '_' || doubled then none
  else some (cs.filter (· != '_'))

/-- What follows leading zeros, behind which any number of underscores may stand.
One zero stays where no other digit follows, and then no underscore may stand
right behind it; a sign may follow the zeros. -/
def afterZeros? (cs : List Char) : Option (List Char) :=
  let zeros := cs.takeWhile fun c => c == '0' || c == '_'
  let rest := cs.drop zeros.length
  if cs.head? != some '0' then some cs
  else
    match rest with
    | [] => if zeros.getLast? == some '_' then none else some ['0']
    | '.' :: _ => if zeros.getLast? == some '_' then none else some ('0' :: rest)
    | c :: _ => if c.isDigit || c == '-' then some rest else none

def withoutZeroFraction (cs : List Char) : List Char :=
  let zeros := (cs.dropWhile (· != '.')).drop 1
  if !zeros.isEmpty && zeros.all (· == '0') then cs.takeWhile (· != '.') else cs

/-- The most characters that a whole number may take up, its minus sign
included and leading zeros aside. -/
def longestInteger : Nat := 4300

/-- The whole number that digits write behind a minus sign or none, without a
leading zero. -/
def readDigits (cs : List Char) : Except Mismatch Int :=
  let negative := cs.head? == some '-'
  let digits := if negative then cs.drop 1 else cs
  let padded := digits.head? == some '0' && 1 < digits.length
  if digits.isEmpty || padded || !digits.all Char.isDigit then .error .integerText
  else if longestInteger < cs.length then .error .integerSize
  else
    let n : Int := Decimal.digitsValue digits
    .ok (if negative then -n else n)

/-- The whole number that a text writes: a sign, digits with single underscores
between them, and perhaps a point followed by zeros.  A minus sign counts also
when it stands between leading zeros and the other digits. -/
def readInteger (s : String) : Except Mismatch Int :=
  let cs := trimBlanks s.toList
  let negative := cs.head? == some '-'
  let body := if negative || cs.head? == some '+' then cs.drop 1 else cs
  match ((afterZeros? body).map withoutZeroFraction).bind withoutUnderscores? with
  | none => .error .integerText
  | some digits =>
    if negative then readDigits ('-' :: digits)
    else if cs.head? == some '+' && body.head? == some '-' then .error .integerText
    else readDigits digits

/-- The whole number that a double is, in 64 bits. -/
def integerOfDouble (x : Float) : Except Mismatch Int :=
  match Binary64.decode x with
  | .finite d =>
    if !d.isWhole then .error .integerFraction
    else if d.truncate.natAbs < 9223372036854775808 then .ok d.truncate
    else .error .integerSize
  | _ => .error .notFinite

/-- The whole number that a decimal is.  One with fewer digits than places has
a fraction, and no power needs to be computed to see it. -/
def integerOfDecimal : Decimal → Except Mismatch Int
  | .finite negative coefficient exponent =>
    let places := (-exponent).toNat
    let sign (n : Nat) : Int := if negative then -(n : Int) else n
    if coefficient == 0 then .ok 0
    else if 0 ≤ exponent then .ok (sign (coefficient * Nat.pow 10 exponent.toNat))
    else if (Nat.toDigits 10 coefficient).length < places then .error .integerFraction
    else if coefficient % Nat.pow 10 places == 0 then .ok (sign (coefficient / Nat.pow 10 places))
    else .error .integerFraction
  | _ => .error .notFinite

/-- The whole number that a value means. -/
def integer? : Value → Except Mismatch Int
  | .int n => .ok n
  | .bool b => .ok (if b then 1 else 0)
  | .float x => integerOfDouble x
  | .decimal d => integerOfDecimal d
  | v => do
    match ← carried? .integerText v with
    | some s => readInteger s
    | none => .error .integerType

/-! ## Doubles -/

/-- The double that a text writes, with blanks around it or with underscores in it. -/
def readDouble (s : String) : Except Mismatch Float :=
  match (Numeral.double? (trimBlanks s.toList)).or
      ((withoutUnderscores? s.toList).bind Numeral.double?) with
  | some x => .ok x
  | none => .error .numberText

/-- The double nearest to a number; none for what is no number, and for a whole
number beyond every double. -/
def nearestDouble? : Value → Option Float
  | .float x => some x
  | .int n => doubleOfInt? n
  | .decimal (.finite negative coefficient exponent) =>
    some (doubleOfDecimal negative coefficient exponent)
  | .decimal (.infinite negative) => some (if negative then -1 / 0 else 1 / 0)
  | .decimal (.undefined ..) => some (0 / 0)
  | _ => none

def double? : Value → Except Mismatch Float
  | .bool b => .ok (if b then 1 else 0)
  | v => do
    match ← carried? .numberText v with
    | some s => readDouble s
    | none =>
      match nearestDouble? v with
      | some x => .ok x
      | none => .error .numberType

/-! ## Truth values -/

/-- The words for true and for false, in lower case. -/
def truthWords : List String × List String :=
  (["1", "on", "t", "true", "y", "yes"], ["0", "off", "f", "false", "n", "no"])

/-- The truth value that a text says. -/
def readTruth (s : String) : Except Mismatch Bool :=
  let lower := s.toLower
  if truthWords.1.contains lower then .ok true
  else if truthWords.2.contains lower then .ok false
  else .error .truthText

/-- The truth value that a whole number says. -/
def truthOfInteger (n : Int) : Except Mismatch Bool :=
  if n == 1 then .ok true else if n == 0 then .ok false else .error .truthText

/-- The truth value that a value means.  Numbers that are not whole, or take
more than 64 bits, are of the wrong type. -/
def truth? : Value → Except Mismatch Bool
  | .bool b => .ok b
  | v => do
    match ← carried? .truthText v with
    | some s => readTruth s
    | none =>
      match (nearestDouble? v).map integerOfDouble with
      | some (.ok n) => truthOfInteger n
      | _ => .error .truthType

/-! ## Texts and dates -/

/-- The text that a value is. -/
def string? : Value → Except Mismatch String
  | .bytes b =>
    match Utf8.decode b with
    | .ok s => .ok s
    | .error _ => .error .textOctets
  | v =>
    match v.text? with
    | some s => .ok s
    | none => .error .textType

def midnight? (m : Moment) : Option Date := if m.time.isMidnight then some m.date else none

/-- The greatest number of seconds of a timestamp; greater numbers are milliseconds. -/
def mostSeconds : Nat := 20000000000

/-- The microseconds that a whole timestamp means. -/
def microsOfTimestamp (n : Int) : Int := n * (if n.natAbs ≤ mostSeconds then 1000000 else 1000)

/-- The date that begins so many microseconds after the start of 1970. -/
def dateOfMicros? (n : Int) : Option Date :=
  if n % Duration.microsPerDay == 0 then Date.ofEpochDay? (n / Duration.microsPerDay) else none

/-- A number of seconds or milliseconds in microseconds, to the nearest one. -/
def microsOfDouble (x : Float) : Option Int :=
  match Binary64.decode x with
  | .finite d =>
    let rest := (d.numerator - d.truncate * d.denominator).natAbs
    let micros := (2 * rest * 1000000 + d.denominator) / (2 * d.denominator)
    some (microsOfTimestamp (d.numerator.fdiv d.denominator) + micros)
  | _ => none

/-- The microseconds of a timestamp with a point in it: the whole seconds below
it, and what is left to the nearest microsecond. -/
def microsOfPointed (x : Float) : Option Int :=
  let seconds := if (Float.ofNat mostSeconds) < x.abs then x / 1000 else x
  match Binary64.decode seconds with
  | .finite d =>
    let below := d.numerator.fdiv d.denominator
    match Binary64.decode ((seconds - (doubleOfInt? below).getD 0) * 1000000) with
    | .finite f => some (below * 1000000 + (2 * f.numerator + f.denominator) / (2 * f.denominator))
    | _ => none
  | _ => none

/-- A sign and digits with a point among them or none: the value, and is there
a point? -/
def timestamp? (cs : List Char) : Option (Int × Float × Bool) :=
  let negative := cs.head? == some '-'
  let body := if negative || cs.head? == some '+' then cs.drop 1 else cs
  let whole := body.takeWhile Char.isDigit
  let rest := body.drop whole.length
  let pointed := rest.head? == some '.'
  if (rest.drop 1).all Char.isDigit && (pointed || rest.isEmpty) then
    let n : Int := Decimal.digitsValue whole
    (Numeral.double? cs).map (if negative then -n else n, ·, pointed)
  else none

/-- The date that a text writes: by itself, as a timestamp, or with a time of
day that is midnight. -/
def readDate? (s : String) : Option Date :=
  match timestamp? s.toList with
  | some (_, x, true) => (microsOfPointed x).bind dateOfMicros?
  | some (n, _, false) => dateOfMicros? (microsOfTimestamp n)
  | none => (Date.ofText? s).or ((Moment.ofInterchange? s).bind midnight?)

def date? : Value → Option Date
  | .date d => some d
  | .moment m => midnight? m
  | .int n => dateOfMicros? (microsOfTimestamp n)
  | .bool _ => none
  | v =>
    match carried? .dateType v with
    | .ok (some s) => readDate? s
    | _ => ((nearestDouble? v).bind microsOfDouble).bind dateOfMicros?

end Scalar

end ExpiringStore
