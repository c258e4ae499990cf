import ExpiringStore.Time.Duration

/-!
# Dates and times of day

Calendar dates, times of day and moments with an optional offset from universal
time, with the text forms that they are read from and written to.

    YYYY-MM-DD        HH:MM:SS[.ffffff]        date T time [±HH:MM[:SS[.ffffff]]]

The interchange form knows offsets to the minute only, and is read with more
freedom than the exact form.
-/

namespace ExpiringStore

structure Date where
  year : Nat
  month : Nat
  day : Nat
  deriving DecidableEq, Repr, Inhabited

/-- A time of day, with the offset from universal time in microseconds if it has one. -/
structure ClockTime where
  hour : Nat
  minute : Nat
  second : Nat
  micros : Nat
  offset : Option Int := none
  deriving DecidableEq, Repr, Inhabited

/-- A date and a time of day. -/
structure Moment where
  date : Date
  time : ClockTime
  deriving DecidableEq, Repr, Inhabited

namespace Date

def isLeap (year : Nat) : Bool := year % 4 == 0 && (year % 100 != 0 || year % 400 == 0)

def daysInMonth (year month : Nat) : Nat :=
  if month == 2 then (if isLeap year then 29 else 28)
  else if month == 4 || month == 6 || month == 9 || month == 11 then 30 else 31

def ofParts? (year month day : Nat) : Option Date :=
  if 1 ≤ year && year ≤ 9999 && 1 ≤ month && month ≤ 12 && 1 ≤ day && day ≤ daysInMonth year month
  then some ⟨year, month, day⟩ else none

/-- Days before a year's first of January, counted from the year one. -/
def daysBeforeYear (year : Nat) : Nat :=
  let y := year - 1
  y * 365 + y / 4 - y / 100 + y / 400

/-- The number of days since the first day of the year one. -/
def ordinal (d : Date) : Nat :=
  let months := (List.range (d.month - 1)).map fun m => daysInMonth d.year (m + 1)
  daysBeforeYear d.year + months.foldl (· + ·) 0 + (d.day - 1)

/-- The month and day of a zero-based day of the year. -/
def monthDay (year : Nat) (dayOfYear : Nat) : Nat → Nat × Nat
  | 0 => (12, dayOfYear + 1)
  | left + 1 =>
    let month := 12 - left
    let size := daysInMonth year month
    if dayOfYear < size then (month, dayOfYear + 1) else monthDay year (dayOfYear - size) left

/-- The date some days after the first of January 1970. -/
def ofEpochDay? (n : Int) : Option Date :=
  let ordinal := n + 719162
  if ordinal < 0 then none
  else
    let d := ordinal.toNat
    let guess := d / 366 + 1
    let year := ((List.range 40).map (guess + ·)).reverse.find? (fun y => daysBeforeYear y ≤ d)
    match year with
    | none => none
    | some y =>
      let (month, day) := monthDay y (d - daysBeforeYear y) 12
      ofParts? y month day

def text (d : Date) : String :=
  Duration.padded d.year 4 ++ "-" ++ Duration.padded d.month 2 ++ "-" ++ Duration.padded d.day 2

end Date

namespace ClockTime

/-- A sign, and the hours and minutes of some seconds. -/
def minutesText (negative : Bool) (seconds : Nat) : String :=
  (if negative then "-" else "+") ++ Duration.padded (seconds / 3600) 2 ++ ":" ++
    Duration.padded (seconds / 60 % 60) 2

/-- An offset as a sign, hours and minutes, and what is left where it has some. -/
def offsetText (offset : Int) : String :=
  let seconds := offset.natAbs / 1000000
  let micros := offset.natAbs % 1000000
  minutesText (offset < 0) seconds ++
    (if seconds % 60 == 0 && micros == 0 then "" else ":" ++ Duration.padded (seconds % 60) 2) ++
    (if micros == 0 then "" else "." ++ Duration.padded micros 6)

/-- An offset to the minute, toward zero; one of less than a second is none. -/
def roundOffsetText (offset : Int) : String :=
  let seconds := offset.natAbs / 1000000
  if seconds == 0 then "Z" else minutesText (offset < 0) seconds

/-- Hours, minutes, seconds and, where there is one, a fraction of six digits. -/
def clockText (t : ClockTime) : String :=
  Duration.padded t.hour 2 ++ ":" ++ Duration.padded t.minute 2 ++ ":" ++
    Duration.padded t.second 2 ++
    (if t.micros == 0 then "" else "." ++ Duration.padded t.micros 6)

def text (t : ClockTime) : String :=
  t.clockText ++ (t.offset.map offsetText).getD ""

/-- Like `text`, with the offset to the minute and a letter for universal time. -/
def interchange (t : ClockTime) : String := t.clockText ++ (t.offset.map roundOffsetText).getD ""

def isMidnight (t : ClockTime) : Bool :=
  t.hour == 0 && t.minute == 0 && t.second == 0 && t.micros == 0

def sinceMidnight (t : ClockTime) : Int :=
  ((t.hour * 60 + t.minute) * 60 + t.second) * 1000000 + t.micros

/-- Equal times; times with an offset are compared by universal time. -/
def same (a b : ClockTime) : Bool :=
  match a.offset, b.offset with
  | none, none => a == b
  | some p, some q => a.sinceMidnight - p == b.sinceMidnight - q
  | _, _ => false

end ClockTime

namespace Moment

/-- Equal moments; moments with an offset are compared by universal time. -/
def same (a b : Moment) : Bool :=
  match a.time.offset, b.time.offset with
  | none, none => a == b
  | some p, some q =>
    let universal (m : Moment) (offset : Int) : Int :=
      m.date.ordinal * Duration.microsPerDay + m.time.sinceMidnight - offset
    universal a p == universal b q
  | _, _ => false

def text (m : Moment) : String := m.date.text ++ "T" ++ m.time.text

def interchange (m : Moment) : String := m.date.text ++ "T" ++ m.time.interchange

end Moment

/-! ## Reading -/

namespace Calendar

/-- A number of exactly `n` digits at the head, and the rest. -/
def digits? (n : Nat) (cs : List Char) : Option (Nat × List Char) :=
  let head := cs.take n
  if head.length == n && head.all Char.isDigit then
    some (head.foldl (fun v c => v * 10 + (c.toNat - 48)) 0, cs.drop n)
  else none

def expect? (c : Char) : List Char → Option (List Char)
  | d :: rest => if c == d then some rest else none
  | [] => none

def date? (cs : List Char) : Option (Date × List Char) := do
  let (year, cs) ← digits? 4 cs
  let cs ← expect? '-' cs
  let (month, cs) ← digits? 2 cs
  let cs ← expect? '-' cs
  let (day, cs) ← digits? 2 cs
  let date ← Date.ofParts? year month day
  return (date, cs)

/-- The microseconds a fraction's digits write; digits past the sixth do not count. -/
def fractionMicros (digits : List Char) : Nat :=
  let six := (digits ++ List.replicate 6 '0').take 6
  six.foldl (fun v c => v * 10 + (c.toNat - 48)) 0

def fraction? : List Char → Option (List Char × List Char)
  | [] => some ([], [])
  | c :: rest =>
    if c == '.' || c == ',' then
      let digits := rest.takeWhile Char.isDigit
      if digits.isEmpty then none else some (digits, rest.dropWhile Char.isDigit)
    else some ([], c :: rest)

/-- An offset of some seconds and microseconds, less than a day in either direction. -/
def signed? (negative : Bool) (hours minutes seconds micros : Nat) : Option Int :=
  if 24 ≤ hours || 60 ≤ minutes || 60 ≤ seconds then none
  else
    let n : Int := (hours * 3600 + minutes * 60 + seconds) * 1000000 + micros
    some (if negative then -n else n)

/-- An exact offset: a letter for universal time, or a sign with hours and as
many further parts as are there. -/
def exactOffset? : List Char → Option (Option Int)
  | [] => some none
  | ['Z'] => some (some 0)
  | sign :: rest => do
    if sign != '+' && sign != '-' then none
    let (hours, rest) ← digits? 2 rest
    let (minutes, rest) ← match expect? ':' rest with
      | some rest => digits? 2 rest
      | none => some (0, rest)
    let (seconds, rest) ← match expect? ':' rest with
      | some rest => digits? 2 rest
      | none => some (0, rest)
    let (fraction, rest) ← fraction? rest
    if !rest.isEmpty then none
    (signed? (sign == '-') hours minutes seconds (fractionMicros fraction)).map some

/-- An offset of the interchange form: a letter for universal time in either
case, or a sign with hours and minutes. -/
def interchangeOffset? : List Char → Option (Option Int)
  | [] => some none
  | ['Z'] => some (some 0)
  | ['z'] => some (some 0)
  | sign :: rest => do
    if sign != '+' && sign != '-' && sign != '−' then none
    let (hours, rest) ← digits? 2 rest
    let rest := (expect? ':' rest).getD rest
    let (minutes, rest) ← digits? 2 rest
    if !rest.isEmpty then none
    (signed? (sign != '+') hours minutes 0 0).map some

/-- A time of day and an offset that take up the rest of the text. -/
def time? (offset? : List Char → Option (Option Int)) (cs : List Char) : Option ClockTime := do
  let (hour, cs) ← digits? 2 cs
  let cs ← expect? ':' cs
  let (minute, cs) ← digits? 2 cs
  let (second, cs) ← match expect? ':' cs with
    | some cs => digits? 2 cs
    | none => some (0, cs)
  let (fraction, cs) ← fraction? cs
  let offset ← offset? cs
  if 24 ≤ hour || 60 ≤ minute || 60 ≤ second then none
  return ⟨hour, minute, second, fractionMicros fraction, offset⟩

end Calendar

/-- The date that a text is, and nothing else. -/
def Date.ofText? (s : String) : Option Date :=
  match Calendar.date? s.toList with
  | some (d, []) => some d
  | _ => none

def ClockTime.ofText? (s : String) : Option ClockTime :=
  Calendar.time? Calendar.exactOffset? s.toList

/-- A date and a time of day, parted by one character; a date alone is its midnight. -/
def Moment.ofText? (s : String) : Option Moment :=
  match Calendar.date? s.toList with
  | some (d, []) => some ⟨d, ⟨0, 0, 0, 0, none⟩⟩
  | some (d, _ :: rest) => (Calendar.time? Calendar.exactOffset? rest).map (⟨d, ·⟩)
  | none => none

/-- A date and a time of day in interchange form, parted by a letter, a blank
or an underscore; a date alone is its midnight. -/
def Moment.ofInterchange? (s : String) : Option Moment :=
  match Calendar.date? s.toList with
  | some (d, []) => some ⟨d, ⟨0, 0, 0, 0, none⟩⟩
  | some (d, c :: rest) =>
    if c == 'T' || c == 't' || c == ' ' || c == '_' then
      (Calendar.time? Calendar.interchangeOffset? rest).map (⟨d, ·⟩)
    else none
  | none => none

end ExpiringStore
