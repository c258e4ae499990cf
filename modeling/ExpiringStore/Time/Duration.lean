import ExpiringStore.Number.Basic
import ExpiringStore.Number.Rounding

/-!
# Durations

A duration is a whole number of microseconds of either sign.  `ofSeconds?`
builds one from a number of seconds: whole seconds count exactly, the fraction
is rounded to a microsecond with ties to even.  A duration holds fewer than
10^9 days in either direction.

    (ofSeconds? (.int n)) = .ok ⟨n · 10^6⟩   for every n within the range
-/

namespace ExpiringStore

/-- A length of time in microseconds. -/
structure Duration where
  micros : Int
  deriving DecidableEq, Repr, Inhabited

namespace Duration

def microsPerSecond : Int := 1000000

def microsPerDay : Int := 86400000000

/-- Why a number of seconds is no duration. -/
inductive Failure where
  | undefined
  | infinite
  | tooManyDays (days : Int)
  deriving DecidableEq, Repr

/-- The wording of a refusal; days beyond 32 bits are not named. -/
def Failure.text : Failure → String
  | .undefined => "cannot convert float NaN to integer"
  | .infinite => "cannot convert float infinity to integer"
  | .tooManyDays days =>
    if days < -2147483648 || 2147483647 < days then "Python int too large to convert to C int"
    else s!"days={days}; must have magnitude <= 999999999"

/-- Whole days, rounded down. -/
def days (d : Duration) : Int := d.micros.fdiv microsPerDay

/-- Seconds beyond the whole days. -/
def seconds (d : Duration) : Nat :=
  ((d.micros.fmod microsPerDay).toNat) / 1000000

/-- Microseconds beyond the whole seconds. -/
def microseconds (d : Duration) : Nat :=
  ((d.micros.fmod microsPerDay).toNat) % 1000000

/-- A duration of some microseconds, if it is within the range. -/
def ofMicros? (n : Int) : Except Failure Duration :=
  let days := n.fdiv microsPerDay
  if days < -999999999 || 999999999 < days then .error (.tooManyDays days) else .ok ⟨n⟩

/-- A duration of days, seconds and microseconds of any sign. -/
def ofParts (days seconds micros : Int) : Duration :=
  ⟨days * microsPerDay + seconds * microsPerSecond + micros⟩

def ofSeconds? : Number → Except Failure Duration
  | .int n => ofMicros? (n * microsPerSecond)
  | .float x =>
    match Binary64.decode x with
    | .undefined => .error .undefined
    | .infinite _ => .error .infinite
    | .finite d =>
      let whole := d.truncate
      let fraction := x - (doubleOfInt? whole).getD 0
      match Binary64.decode (fraction * 1000000) with
      | .finite f => ofMicros? (whole * microsPerSecond + roundRatio f.numerator f.denominator)
      | _ => .error .undefined

/-- The duration in seconds, as the nearest double. -/
def toSeconds (d : Duration) : Float := doubleOfDecimal (d.micros < 0) d.micros.natAbs (-6)

/-- A number with leading zeros. -/
def padded (n width : Nat) : String :=
  let digits := Nat.toDigits 10 n
  String.ofList (List.replicate (width - digits.length) '0' ++ digits)

/-- A fraction of a second in microseconds without its trailing zeros, after a point. -/
def fractionText (micros : Nat) : String :=
  if micros == 0 then ""
  else "." ++ String.ofList ((padded micros 6).toList.reverse.dropWhile (· == '0')).reverse

/-- Interchange form: sign, then years of 365 days, days, hours, minutes and
seconds, each only where it counts. -/
def interchange (d : Duration) : String :=
  let total := d.micros.natAbs
  let micros := total % 1000000
  let second := total / 1000000 % 86400
  let day := total / 86400000000
  let part (n : Nat) (mark : String) : String := if n == 0 then "" else toString n ++ mark
  let date := part (day / 365) "Y" ++ part (day % 365) "D"
  let tail :=
    if second % 60 == 0 && micros == 0 then ""
    else toString (second % 60) ++ fractionText micros ++ "S"
  let clock :=
    if second == 0 && micros == 0 then ""
    else "T" ++ part (second / 3600) "H" ++ part (second / 60 % 60) "M" ++ tail
  (if d.micros < 0 then "-" else "") ++ "P" ++ date ++ clock ++ (if total == 0 then "T0S" else "")

end Duration

end ExpiringStore
