import ExpiringStore.Json.Basic
import ExpiringStore.Number.Rounding

/-!
# Reading structured data from text

`Json.parse` reads one value and nothing after it but blanks.  Besides the
standard it takes `NaN`, `Infinity` and `-Infinity`; a whole number may not have
too many digits, and nesting may not be too deep.  A refusal says what was
expected and where, counted in characters; `ReadError.message` adds line and
column.  The length of the text bounds the steps and serves as fuel.
-/

namespace ExpiringStore.Json

/-- Why a text is no structured data. -/
inductive ReadError.Kind where
  | byteOrderMark
  | value
  | propertyName
  | colon
  | comma
  | extraData
  | unterminatedString
  | controlCharacter
  | escape
  | unicodeEscape
  | tooManyDigits (count : Nat)
  | tooDeep (kind : String)
  deriving DecidableEq, Repr

/-- A refusal and the place it refers to. -/
structure ReadError where
  kind : ReadError.Kind
  position : Nat
  deriving DecidableEq, Repr

/-- What is wrong, without the place. -/
def ReadError.Kind.text : ReadError.Kind → String
  | .byteOrderMark => "Unexpected UTF-8 BOM (decode using utf-8-sig)"
  | .value => "Expecting value"
  | .propertyName => "Expecting property name enclosed in double quotes"
  | .colon => "Expecting ':' delimiter"
  | .comma => "Expecting ',' delimiter"
  | .extraData => "Extra data"
  | .unterminatedString => "Unterminated string starting at"
  | .controlCharacter => "Invalid control character at"
  | .escape => "Invalid \\escape"
  | .unicodeEscape => "Invalid \\uXXXX escape"
  | .tooManyDigits count => ExpiringStore.tooManyDigits count
  | .tooDeep kind =>
    s!"maximum recursion depth exceeded while decoding a JSON {kind} from a unicode string"

def ReadError.Kind.isPlaced : ReadError.Kind → Bool
  | .tooManyDigits _ | .tooDeep _ => false
  | _ => true

/-- The full wording for a refusal of `text`: lines and columns count from one. -/
def ReadError.message (e : ReadError) (text : String) : String :=
  let before := text.toList.take e.position
  let line := before.count '\n' + 1
  let column := (before.reverse.takeWhile (· != '\n')).length + 1
  if e.kind.isPlaced then s!"{e.kind.text}: line {line} column {column} (char {e.position})"
  else e.kind.text

namespace Reader

/-- The unread characters and how many were read before them. -/
structure Cursor where
  rest : List Char
  position : Nat

/-- Moves on by one character. -/
def Cursor.next (c : Cursor) : Cursor := ⟨c.rest.drop 1, c.position + 1⟩

/-- Moves on by some characters. -/
def Cursor.skip (c : Cursor) (n : Nat) : Cursor := ⟨c.rest.drop n, c.position + n⟩

def fail {α : Type} (kind : ReadError.Kind) (position : Nat) : Except ReadError α :=
  .error ⟨kind, position⟩

def isBlank (c : Char) : Bool := c == ' ' || c == '\t' || c == '\n' || c == '\r'

def blanks (c : Cursor) : Cursor := c.skip (c.rest.takeWhile isBlank).length

def hexDigit? (c : Char) : Option Nat :=
  if '0' ≤ c && c ≤ '9' then some (c.toNat - 48)
  else if 'a' ≤ c && c ≤ 'f' then some (c.toNat - 87)
  else if 'A' ≤ c && c ≤ 'F' then some (c.toNat - 55)
  else none

/-- The number four hexadecimal digits write. -/
def hexFour? : List Char → Option Nat
  | a :: b :: c :: d :: _ => do
    let a ← hexDigit? a
    let b ← hexDigit? b
    let c ← hexDigit? c
    let d ← hexDigit? d
    some (((a * 16 + b) * 16 + c) * 16 + d)
  | _ => none

def shortEscape? : Char → Option Char
  | '"' => some '"'
  | '\\' => some '\\'
  | '/' => some '/'
  | 'b' => some '\x08'
  | 'f' => some '\x0c'
  | 'n' => some '\n'
  | 'r' => some '\r'
  | 't' => some '\t'
  | _ => none

/-- A character written with four hexadecimal digits, or two such escapes for a
character beyond the first plane.  The cursor stands on the first digit. -/
def unicodeEscape (c : Cursor) : Except ReadError (Char × Cursor) := do
  if (c.rest.drop 4).isEmpty then fail .unicodeEscape (c.position - 1)
  match hexFour? c.rest with
  | none => fail .unicodeEscape (c.position - 1)
  | some high =>
    let c := c.skip 4
    match c.rest with
    | '\\' :: 'u' :: more =>
      if 0xD800 ≤ high && high ≤ 0xDBFF && !(more.drop 4).isEmpty then
        match hexFour? more with
        | none => fail .unicodeEscape (c.position + 1)
        | some low =>
          if 0xDC00 ≤ low && low ≤ 0xDFFF then
            return (Char.ofNat (0x10000 + (high - 0xD800) * 1024 + (low - 0xDC00)), c.skip 6)
          else return ('\uFFFD', c)
      else return (if 0xD800 ≤ high && high ≤ 0xDFFF then '\uFFFD' else Char.ofNat high, c)
    | _ => return (if 0xD800 ≤ high && high ≤ 0xDFFF then '\uFFFD' else Char.ofNat high, c)

/-- The rest of a string whose opening quote stands at `start`. -/
def stringBody (start : Nat) (done : List Char) : Nat → Cursor → Except ReadError (String × Cursor)
  | 0, _ => fail .unterminatedString start
  | fuel + 1, c =>
    match c.rest with
    | [] => fail .unterminatedString start
    | '"' :: _ => .ok (String.ofList done.reverse, c.next)
    | '\\' :: more =>
      match more with
      | [] => fail .unterminatedString start
      | 'u' :: _ =>
        match unicodeEscape (c.skip 2) with
        | .error e => .error e
        | .ok (ch, c) => stringBody start (ch :: done) fuel c
      | e :: _ =>
        match shortEscape? e with
        | some ch => stringBody start (ch :: done) fuel (c.skip 2)
        | none => fail .escape c.position
    | ch :: _ =>
      if ch.toNat < 0x20 then fail .controlCharacter c.position
      else stringBody start (ch :: done) fuel c.next

/-- A string; the cursor stands behind its opening quote. -/
def string (c : Cursor) : Except ReadError (String × Cursor) :=
  stringBody (c.position - 1) [] (c.rest.length + 1) c

def digitsValue (cs : List Char) : Nat := cs.foldl (fun n c => n * 10 + (c.toNat - 48)) 0

/-- The exponent at the head: its value and its length. -/
def exponent? : List Char → Option (Int × Nat)
  | e :: rest =>
    if e == 'e' || e == 'E' then
      let (negative, signs) := match rest with
        | '-' :: _ => (true, 1)
        | '+' :: _ => (false, 1)
        | _ => (false, 0)
      let digits := (rest.drop signs).takeWhile Char.isDigit
      if digits.isEmpty then none
      else
        let n : Int := digitsValue digits
        some (if negative then -n else n, 1 + signs + digits.length)
    else none
  | [] => none

/-- A number: whole without point and exponent, a double otherwise. -/
def number (c : Cursor) : Except ReadError (Json × Cursor) :=
  let (negative, signs) := match c.rest with
    | '-' :: _ => (true, 1)
    | _ => (false, 0)
  let body := c.rest.drop signs
  let whole := match body with
    | '0' :: _ => ['0']
    | _ => body.takeWhile Char.isDigit
  if whole.isEmpty then fail .value c.position
  else
    let afterWhole := body.drop whole.length
    let fraction := match afterWhole with
      | '.' :: more => more.takeWhile Char.isDigit
      | _ => []
    let pointed := if fraction.isEmpty then 0 else fraction.length + 1
    let (power, powerLength) := (exponent? (afterWhole.drop pointed)).getD (0, 0)
    let start := c.position
    let c := c.skip (signs + whole.length + pointed + powerLength)
    if pointed == 0 && powerLength == 0 then
      let n : Int := digitsValue whole
      if longestNumeral < whole.length then fail (.tooManyDigits whole.length) start
      else .ok (.int (if negative then -n else n), c)
    else
      let m := digitsValue (whole ++ fraction)
      .ok (.float (doubleOfDecimal negative m (power - fraction.length)), c)

def words : List (String × Json) :=
  [("null", .null), ("true", .bool true), ("false", .bool false), ("NaN", .float (0 / 0)),
    ("Infinity", .float (1 / 0)), ("-Infinity", .float (-(1 / 0)))]

def word? (c : Cursor) : Option (Json × Cursor) :=
  words.findSome? fun (w, v) =>
    if w.toList.isPrefixOf c.rest then some (v, c.skip w.length) else none

/-- The most arrays and objects that may stand around a value. -/
def deepest : Nat := 940

mutual

/-- One value at the cursor, so many arrays and objects around it. -/
def value : Nat → Nat → Cursor → Except ReadError (Json × Cursor)
  | 0, _, c => fail .value c.position
  | fuel + 1, depth, c =>
    match c.rest with
    | [] => fail .value c.position
    | '"' :: _ => do
      let (s, c) ← string c.next
      return (.str s, c)
    | '\x7b' :: _ =>
      if deepest ≤ depth then fail (.tooDeep "object") c.position
      else
        let c := blanks c.next
        match c.rest with
        | '\x7d' :: _ => .ok (.object [], c.next)
        | _ => fields fuel depth [] c
    | '[' :: _ =>
      if deepest ≤ depth then fail (.tooDeep "array") c.position
      else
        let c := blanks c.next
        match c.rest with
        | ']' :: _ => .ok (.array [], c.next)
        | _ => items fuel depth [] c
    | _ =>
      match word? c with
      | some r => .ok r
      | none => number c

/-- Array items up to the closing bracket. -/
def items : Nat → Nat → List Json → Cursor → Except ReadError (Json × Cursor)
  | 0, _, _, c => fail .value c.position
  | fuel + 1, depth, done, c => do
    let (v, c) ← value fuel (depth + 1) c
    let c := blanks c
    match c.rest with
    | ']' :: _ => return (.array (v :: done).reverse, c.next)
    | ',' :: _ => items fuel depth (v :: done) (blanks c.next)
    | _ => fail .comma c.position

/-- Object fields up to the closing brace. -/
def fields : Nat → Nat → List (String × Json) → Cursor → Except ReadError (Json × Cursor)
  | 0, _, _, c => fail .value c.position
  | fuel + 1, depth, done, c => do
    match c.rest with
    | '"' :: _ =>
      let (name, c) ← string c.next
      let c := blanks c
      match c.rest with
      | ':' :: _ =>
        let (v, c) ← value fuel (depth + 1) (blanks c.next)
        let done := put name v done
        let c := blanks c
        match c.rest with
        | '\x7d' :: _ => return (.object done, c.next)
        | ',' :: _ => fields fuel depth done (blanks c.next)
        | _ => fail .comma c.position
      | _ => fail .colon c.position
    | _ => fail .propertyName c.position

end

end Reader

/-- The value that a text writes. -/
def parse (text : String) : Except ReadError Json := do
  let chars := text.toList
  if chars.head? == some '\uFEFF' then throw ⟨.byteOrderMark, 0⟩
  let (v, c) ← Reader.value (2 * chars.length + 2) 0 (Reader.blanks ⟨chars, 0⟩)
  let c := Reader.blanks c
  if c.rest.isEmpty then return v else throw ⟨.extraData, c.position⟩

end ExpiringStore.Json
