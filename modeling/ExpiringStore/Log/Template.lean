import ExpiringStore.Number.Notation
import ExpiringStore.Value.Plain

/-!
# Templates

A template is a text with places for values.  A place begins with a percent
sign and ends with a letter that says how the value is written:

    % [(name)] [flags] [width] [.precision] [length] letter

Values are taken in order, or by name from a dictionary.  `fill` gives the text
with all values in their places, or says why they do not fit.
-/

namespace ExpiringStore.Template

/-- Why values do not fit a template. -/
inductive Failure where
  | tooFewValues
  | tooManyValues
  | notMapping
  | openName
  | incomplete
  | widthTooBig
  | precisionTooBig
  | widthNotWhole
  | widthBeyondWord
  | precisionBeyondWord
  | unknownName (name : String)
  | namesNotKept (collection : String)
  | unknownLetter (letter : Char) (index : Nat)
  | notWhole (letter : Char) (type : String)
  | notReal (letter : Char) (type : String)
  | notNumber (type : String)
  | undefinedNumber (what : String)
  | infiniteNumber (what : String)
  | signalingNumber
  | beyondDoubles
  | notCharacter
  | beyondCharacters
  /-- A value that has no size stands where a collection of values is asked for. -/
  | noSize (type : String)
  deriving DecidableEq, Repr

def Failure.text : Failure → String
  | .tooFewValues => "not enough arguments for format string"
  | .tooManyValues => "not all arguments converted during string formatting"
  | .notMapping => "format requires a mapping"
  | .openName => "incomplete format key"
  | .incomplete => "incomplete format"
  | .widthTooBig => "width too big"
  | .precisionTooBig => "precision too big"
  | .widthNotWhole => "* wants int"
  | .widthBeyondWord => "Python int too large to convert to C ssize_t"
  | .precisionBeyondWord => "Python int too large to convert to C int"
  | .unknownName name => Quoted.text name
  | .namesNotKept collection => collection ++ " indices must be integers or slices, not str"
  | .unknownLetter letter index =>
    let n := letter.toNat
    let shown := if 31 ≤ n && n ≤ 126 then letter else '?'
    "unsupported format character '" ++ String.ofList [shown] ++ "' (0x" ++
      String.ofList (Nat.toDigits 16 n) ++ ") at index " ++ toString index
  | .notWhole letter type =>
    "%" ++ String.ofList [letter] ++ " format: an integer is required, not " ++ type
  | .notReal letter type =>
    "%" ++ String.ofList [letter] ++ " format: a real number is required, not " ++ type
  | .notNumber type => "must be real number, not " ++ type
  | .undefinedNumber what => "cannot convert " ++ what ++ " to integer"
  | .infiniteNumber what => "cannot convert " ++ what ++ " to integer"
  | .signalingNumber => "cannot convert signaling NaN to float"
  | .beyondDoubles => "int too large to convert to float"
  | .notCharacter => "%c requires int or char"
  | .beyondCharacters => "%c arg not in range(0x110000)"
  | .noSize type => "object of type '" ++ type ++ "' has no len()"

/-! ## Values and where they come from -/

/-- The values for a template: some in order, or one alone. -/
inductive Values where
  | several (vs : List Value)
  | single (v : Value)

/-- The values that are left, and what names are looked up in. -/
structure Supply where
  left : List Value
  mapping : Option Value

/-- Can names be looked up in the value at all? -/
def keepsItems : Value → Bool
  | .dict _ | .list _ | .endless | .bytes _ => true
  | _ => false

def Values.supply : Values → Supply
  | .several vs => ⟨vs, none⟩
  | .single v => ⟨[v], if keepsItems v then some v else none⟩

/-- The value of a name. -/
def named (mapping : Value) (name : String) : Except Failure Value :=
  match mapping with
  | .dict entries =>
    match Value.entry? name entries with
    | some v => .ok v
    | none => .error (.unknownName name)
  | .bytes _ => .error (.namesNotKept "byte")
  | _ => .error (.namesNotKept "list")

def Supply.next (s : Supply) : Except Failure (Value × Supply) :=
  match s.left with
  | v :: rest => .ok (v, { s with left := rest })
  | [] => .error .tooFewValues

/-! ## Places -/

/-- How a value is written at a place. -/
structure Place where
  leftAligned : Bool := false
  plus : Bool := false
  blank : Bool := false
  alternate : Bool := false
  zeros : Bool := false
  width : Nat := 0
  precision : Option Nat := none
  letter : Char := 's'

def flags (p : Place) : List Char → Place × List Char
  | '-' :: rest => flags { p with leftAligned := true } rest
  | '+' :: rest => flags { p with plus := true } rest
  | ' ' :: rest => flags { p with blank := true } rest
  | '#' :: rest => flags { p with alternate := true } rest
  | '0' :: rest => flags { p with zeros := true } rest
  | rest => (p, rest)

/-- A name in balanced parentheses, of which one is open, and the rest. -/
def name? : Nat → List Char → Option (List Char × List Char)
  | _, [] => none
  | depth, '(' :: rest => (name? (depth + 1) rest).map fun (n, after) => ('(' :: n, after)
  | 0, ')' :: rest => some ([], rest)
  | depth + 1, ')' :: rest => (name? depth rest).map fun (n, after) => (')' :: n, after)
  | depth, c :: rest => (name? depth rest).map fun (n, after) => (c :: n, after)

def wholeValue : Value → Except Failure Int
  | .int n => .ok n
  | .bool b => .ok (if b then 1 else 0)
  | _ => .error .widthNotWhole

/-- The greatest numbers that a width and a precision may be. -/
def mostWidth : Nat := 9223372036854775807

def mostPrecision : Nat := 2147483647

/-- The width at the cursor, written out or among the values. -/
def readWidth (p : Place) (s : Supply) (cs : List Char) :
    Except Failure (Place × Supply × List Char) :=
  match cs with
  | '*' :: rest => do
    let (v, s) ← s.next
    let n ← wholeValue v
    if mostWidth < n.natAbs then throw .widthBeyondWord
    return ({ p with width := n.natAbs, leftAligned := p.leftAligned || n < 0 }, s, rest)
  | cs =>
    let digits := cs.takeWhile Char.isDigit
    let n := Decimal.digitsValue digits
    if mostWidth < n then .error .widthTooBig
    else .ok ({ p with width := n }, s, cs.drop digits.length)

def readPrecision (p : Place) (s : Supply) (cs : List Char) :
    Except Failure (Place × Supply × List Char) :=
  match cs with
  | '.' :: '*' :: rest => do
    let (v, s) ← s.next
    let n ← wholeValue v
    if mostPrecision < n.natAbs then throw .precisionBeyondWord
    return ({ p with precision := some n.toNat }, s, rest)
  | '.' :: rest =>
    let digits := rest.takeWhile Char.isDigit
    let n := Decimal.digitsValue digits
    if mostPrecision < n then .error .precisionTooBig
    else .ok ({ p with precision := some n }, s, rest.drop digits.length)
  | cs => .ok (p, s, cs)

/-- The place that follows a percent sign, and the rest of the template. -/
def readPlace (s : Supply) (cs : List Char) : Except Failure (Place × Supply × List Char) := do
  let (s, cs) ← match cs with
    | '(' :: rest =>
      match s.mapping with
      | none => throw .notMapping
      | some mapping =>
        match name? 0 rest with
        | none => throw .openName
        | some (name, rest) => do
          let v ← named mapping (String.ofList name)
          pure ({ s with left := [v] }, rest)
    | cs => pure (s, cs)
  let (p, cs) := flags {} cs
  let (p, s, cs) ← readWidth p s cs
  let (p, s, cs) ← readPrecision p s cs
  let cs := match cs with
    | c :: rest => if c == 'h' || c == 'l' || c == 'L' then rest else cs
    | [] => []
  match cs with
  | [] => throw .incomplete
  | letter :: rest => return ({ p with letter }, s, rest)

/-! ## Writing values -/

/-- A body with its sign and its mark, brought to the width of the place. -/
def Place.align (p : Place) (numeric : Bool) (sign mark body : List Char) : List Char :=
  let size := sign.length + mark.length + body.length
  let fill := p.width - size
  if p.leftAligned then sign ++ mark ++ body ++ List.replicate fill ' '
  else if numeric && p.zeros then sign ++ mark ++ List.replicate fill '0' ++ body
  else List.replicate fill ' ' ++ sign ++ mark ++ body

def Place.sign (p : Place) (negative : Bool) : List Char :=
  if negative then ['-'] else if p.plus then ['+'] else if p.blank then [' '] else []

def Place.text (p : Place) (body : List Char) : List Char :=
  p.align false [] [] (match p.precision with
    | some n => body.take n
    | none => body)

/-- Characters beyond ASCII escaped. -/
def asciiOnly (cs : List Char) : List Char :=
  cs.flatMap fun c =>
    if c.toNat < 0x80 then [c]
    else if c.toNat ≤ 0xFF then ['\\', 'x'] ++ Json.hexDigits c.toNat 2
    else if c.toNat ≤ 0xFFFF then ['\\', 'u'] ++ Json.hexDigits c.toNat 4
    else ['\\', 'U'] ++ Json.hexDigits c.toNat 8

/-- The number that hexadecimal digits write, other characters aside. -/
def hexValue (s : String) : Nat :=
  s.toList.foldl (fun n c =>
    if c.isDigit then n * 16 + (c.toNat - 48)
    else if 'a' ≤ c && c ≤ 'f' then n * 16 + (c.toNat - 87) else n) 0

/-- The greatest exponent of a decimal whose whole part is worked out. -/
def mostExponent : Int := 100000

/-- The whole number that a value is, or is cut to. -/
def wholeNumber (letter : Char) (v : Value) : Except Failure Int :=
  match v with
  | .int n => .ok n
  | .bool b => .ok (if b then 1 else 0)
  | .float x =>
    match Binary64.decode x with
    | .finite d => .ok d.truncate
    | .infinite _ => .error (.infiniteNumber "float infinity")
    | .undefined => .error (.undefinedNumber "float NaN")
  | .decimal (.finite negative coefficient exponent) =>
    let places := (-exponent).toNat
    let n : Nat :=
      if mostExponent < exponent then 0
      else if 0 ≤ exponent then coefficient * Nat.pow 10 exponent.toNat
      else if (Nat.toDigits 10 coefficient).length < places then 0
      else coefficient / Nat.pow 10 places
    .ok (if negative then -(n : Int) else n)
  | .decimal (.infinite _) => .error (.infiniteNumber "Infinity")
  | .decimal (.undefined ..) => .error (.undefinedNumber "NaN")
  | .uuid s => .ok (hexValue s)
  | v => .error (.notReal letter v.typePath)

/-- The whole number that a value is already. -/
def exactNumber (letter : Char) (v : Value) : Except Failure Int :=
  match v with
  | .int n => .ok n
  | .bool b => .ok (if b then 1 else 0)
  | v => .error (.notWhole letter v.typePath)

/-- A whole number in a base, with at least as many digits as the precision says. -/
def Place.whole (p : Place) (base : Nat) (mark : List Char) (n : Int) : List Char :=
  let digits := Nat.toDigits base n.natAbs
  let digits := List.replicate (p.precision.getD 0 - digits.length) '0' ++ digits
  let upper (cs : List Char) := if p.letter == 'X' then cs.map Char.toUpper else cs
  p.align true (p.sign (n < 0)) (if p.alternate then upper mark else []) (upper digits)

def double (v : Value) : Except Failure Float :=
  match v with
  | .bool b => .ok (if b then 1 else 0)
  | .int n =>
    match doubleOfInt? n with
    | some x => .ok x
    | none => .error .beyondDoubles
  | .float x => .ok x
  | .decimal (.finite negative coefficient exponent) =>
    .ok (doubleOfDecimal negative coefficient exponent)
  | .decimal (.infinite negative) => .ok (if negative then -1 / 0 else 1 / 0)
  | .decimal (.undefined _ signaling _) =>
    if signaling then .error .signalingNumber else .ok (0 / 0)
  | v => .error (.notNumber v.typePath)

/-- A double, in capitals where the letter is one. -/
def Place.real (p : Place) (style : Notation.Style) (x : Float) : List Char :=
  let (negative, body) := Notation.write style p.alternate (p.precision.getD 6) x
  p.align true (p.sign negative) []
    (if p.letter.isUpper then body.map Char.toUpper else body)

/-- A character by itself or by its number. -/
def character (v : Value) : Except Failure Char :=
  let ofCode (n : Int) : Except Failure Char :=
    if n < 0 || 0x110000 ≤ n then .error .beyondCharacters else .ok (Char.ofNat n.toNat)
  match v.text?.map String.toList, v with
  | some [c], _ => .ok c
  | _, .int n => ofCode n
  | _, .bool b => ofCode (if b then 1 else 0)
  | _, _ => .error .notCharacter

/-- A value at a place, whose letter has the given index in the template. -/
def Place.write (p : Place) (index : Nat) (v : Value) : Except Failure (List Char) :=
  match p.letter with
  | 's' => .ok (p.text v.plain.toList)
  | 'r' => .ok (p.text v.quoted.toList)
  | 'a' => .ok (p.text (asciiOnly v.quoted.toList))
  | 'd' | 'i' | 'u' => (wholeNumber p.letter v).map (p.whole 10 [])
  | 'o' => (exactNumber p.letter v).map (p.whole 8 ['0', 'o'])
  | 'x' | 'X' => (exactNumber p.letter v).map (p.whole 16 ['0', 'x'])
  | 'e' | 'E' => (double v).map (p.real .scientific)
  | 'f' | 'F' => (double v).map (p.real .fixed)
  | 'g' | 'G' => (double v).map (p.real .general)
  | 'c' => (character v).map fun c => p.align false [] [] [c]
  | c => .error (.unknownLetter c index)

/-! ## Filling -/

/-- Fills the rest of a template of `size` characters; each step uses up at
least one of them. -/
def fillFrom (size : Nat) : Nat → Supply → List Char → Except Failure (List Char)
  | _, s, [] => if s.mapping.isNone && !s.left.isEmpty then .error .tooManyValues else .ok []
  | 0, _, cs => .ok cs
  | fuel + 1, s, '%' :: '%' :: rest => (fillFrom size fuel s rest).map ('%' :: ·)
  | fuel + 1, s, '%' :: rest => do
    let (p, s, rest) ← readPlace s rest
    let (v, s) ← s.next
    let written ← p.write (size - rest.length - 1) v
    return written ++ (← fillFrom size fuel s rest)
  | fuel + 1, s, c :: rest => (fillFrom size fuel s rest).map (c :: ·)

def fill (template : String) (values : Values) : Except Failure String :=
  let cs := template.toList
  (fillFrom cs.length cs.length values.supply cs).map String.ofList

end ExpiringStore.Template
