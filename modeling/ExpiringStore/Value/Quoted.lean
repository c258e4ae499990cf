import ExpiringStore.Value.Basic
import ExpiringStore.Text.Quoted

/-!
# Values as diagnostics show them

Every value has a one-line form in which texts stand between quotes, so that a
diagnostic can be read without doubt about where a value ends.
-/

namespace ExpiringStore

/-- The parts of a duration that are not zero, or a bare zero. -/
def Duration.quoted (d : Duration) : String :=
  let part (n : Int) (name : String) : List String :=
    if n == 0 then [] else [name ++ "=" ++ toString n]
  let parts := part d.days "days" ++ part d.seconds "seconds" ++
    part d.microseconds "microseconds"
  "datetime.timedelta(" ++ (if parts.isEmpty then "0" else String.intercalate ", " parts) ++ ")"

def ClockTime.quotedOffset (offset : Int) : String :=
  if offset == 0 then "datetime.timezone.utc"
  else "datetime.timezone(" ++ (Duration.ofParts 0 0 offset).quoted ++ ")"

/-- Hours and minutes, then seconds and microseconds as far as they count. -/
def ClockTime.quotedParts (t : ClockTime) : List String :=
  let tail :=
    if t.micros != 0 then [toString t.second, toString t.micros]
    else if t.second != 0 then [toString t.second]
    else []
  [toString t.hour, toString t.minute] ++ tail ++
    (match t.offset with
      | none => []
      | some offset => ["tzinfo=" ++ ClockTime.quotedOffset offset])

def Date.quotedParts (d : Date) : List String := [toString d.year, toString d.month, toString d.day]

def Member.quoted (m : Member) : String :=
  "<" ++ m.type ++ "." ++ m.name ++ ": " ++ Quoted.text m.text ++ ">"

namespace Value

def bracketed (left right : String) (parts : List String) : String :=
  left ++ String.intercalate ", " parts ++ right

mutual

/-- The one-line form of a value. -/
def quoted : Value → String
  | .none => "None"
  | .bool b => if b then "True" else "False"
  | .int n => toString n
  | .float x => floatText x
  | .str s => Quoted.text s
  | .bytes b => Quoted.octets b
  | .list items => bracketed "[" "]" (quotedItems items)
  | .tuple items =>
    match items with
    | [v] => "(" ++ quoted v ++ ",)"
    | items => bracketed "(" ")" (quotedItems items)
  | .set items => if items.isEmpty then "set()" else bracketed "\x7b" "\x7d" (quotedItems items)
  | .dict entries => bracketed "\x7b" "\x7d" (quotedEntries entries)
  | .moment m => bracketed "datetime.datetime(" ")" (m.date.quotedParts ++ m.time.quotedParts)
  | .date d => bracketed "datetime.date(" ")" d.quotedParts
  | .time t => bracketed "datetime.time(" ")" t.quotedParts
  | .duration d => d.quoted
  | .decimal d => "Decimal(" ++ Quoted.text d.text ++ ")"
  | .uuid s => "UUID(" ++ Quoted.text s ++ ")"
  | .member m => m.quoted
  | .record _ type fields => type ++ bracketed "(" ")" (quotedFields fields)
  | .nullMarker => "NULL_VALUE"
  | .object => "<object object>"
  | .endless => "[[...]]"

def quotedItems : List Value → List String
  | [] => []
  | v :: rest => quoted v :: quotedItems rest

def quotedEntries : List (Value × Value) → List String
  | [] => []
  | (k, v) :: rest => (quoted k ++ ": " ++ quoted v) :: quotedEntries rest

def quotedFields : List (String × Value) → List String
  | [] => []
  | (name, v) :: rest => (name ++ "=" ++ quoted v) :: quotedFields rest

end

end Value

end ExpiringStore
