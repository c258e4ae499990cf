import ExpiringStore.Json.Basic

/-!
# Writing structured data as text

One line without blanks.  Quotes, backslashes and control characters are
escaped, all else is written as it is; whole numbers are decimal digits and
doubles the shortest text that reads back.  A whole number with too many digits
cannot be written.
-/

namespace ExpiringStore.Json

/-- The lower-case hexadecimal digits of a number, at least `width` of them. -/
def hexDigits (n width : Nat) : List Char :=
  let digits := Nat.toDigits 16 n
  List.replicate (width - digits.length) '0' ++ digits

/-- A character as it stands inside a quoted string. -/
def escapeChar (c : Char) : List Char :=
  if c == '"' then ['\\', '"']
  else if c == '\\' then ['\\', '\\']
  else if c == '\n' then ['\\', 'n']
  else if c == '\r' then ['\\', 'r']
  else if c == '\t' then ['\\', 't']
  else if c.toNat < 0x20 || c.toNat == 0x7F then ['\\', 'u'] ++ hexDigits c.toNat 4
  else [c]

def quote (s : String) : String :=
  String.ofList ('"' :: s.toList.flatMap escapeChar ++ ['"'])

mutual

/-- The text of a value. -/
def render : Json → String
  | .null => "null"
  | .bool b => if b then "true" else "false"
  | .int n => toString n
  | .float x =>
    if x.isNaN then "NaN"
    else if x.isInf then (if x < 0 then "-Infinity" else "Infinity")
    else floatText x
  | .str s => quote s
  | .array items => "[" ++ String.intercalate "," (renderItems items) ++ "]"
  | .object fields => "\x7b" ++ String.intercalate "," (renderFields fields) ++ "\x7d"

def renderItems : List Json → List String
  | [] => []
  | v :: rest => render v :: renderItems rest

def renderFields : List (String × Json) → List String
  | [] => []
  | (name, v) :: rest => (quote name ++ ":" ++ render v) :: renderFields rest

end

mutual

/-- Is no whole number in a value too long to be written? -/
def isWritable : Json → Bool
  | .int n => n.natAbs < Nat.pow 10 longestNumeral
  | .array items => areWritable items
  | .object fields => haveWritable fields
  | _ => true

def areWritable : List Json → Bool
  | [] => true
  | v :: rest => isWritable v && areWritable rest

def haveWritable : List (String × Json) → Bool
  | [] => true
  | (_, v) :: rest => isWritable v && haveWritable rest

end

end ExpiringStore.Json
