import ExpiringStore.Json.Reader
import ExpiringStore.Json.Printer
import ExpiringStore.Lifetime.Expiry

/-!
# Rows

A row holds a payload and what the lifetime of the entry depends on.  The
policy is a word and may be any; the instant of the last access and the
lifetime may be missing.

A payload is kept as text.  A text that writes a number is kept as that number,
and a text that is no structured data is found out when the payload is read.
-/

namespace ExpiringStore

/-- A payload as the table keeps it. -/
inductive Cell where
  | document (j : Json)
  | numeral (n : Number)
  | unreadable (text : String) (reason : Json.ReadError)
  deriving Inhabited

namespace Cell

/-- A double as a table keeps a number: one that is whole and not too large as a
whole number. -/
def ofDouble (x : Float) : Number :=
  match Binary64.decode x with
  | .finite d =>
    if d.isWhole && d.truncate.natAbs < 9223372036854775807 then .int d.truncate else .float x
  | _ => .float x

/-- The blanks that may stand around a number. -/
def isSpace (c : Char) : Bool := c == ' ' || (9 ≤ c.toNat && c.toNat ≤ 13)

/-- The number that a text writes, blanks around it aside. -/
def numeral? (text : String) : Option Number :=
  let cs := (text.toList.dropWhile isSpace).reverse.dropWhile isSpace
  let cs := cs.reverse
  let (negative, body) := match cs with
    | '-' :: rest => (true, rest)
    | '+' :: rest => (false, rest)
    | cs => (false, cs)
  let whole := body.takeWhile Char.isDigit
  let afterWhole := body.dropWhile Char.isDigit
  let (pointed, fraction, tail) := match afterWhole with
    | '.' :: rest => (true, rest.takeWhile Char.isDigit, rest.dropWhile Char.isDigit)
    | rest => (false, [], rest)
  if whole.isEmpty && fraction.isEmpty then none
  else
    let power? := if tail.isEmpty then some ((0 : Int), 0) else Json.Reader.exponent? tail
    match power? with
    | none => none
    | some (power, size) =>
      if size != tail.length then none
      else
        let m := Json.Reader.digitsValue (whole ++ fraction)
        let n : Int := if negative then -(m : Int) else m
        if !pointed && tail.isEmpty && fitsWord n then some (.int n)
        else some (ofDouble (doubleOfDecimal negative m (power - fraction.length)))

/-- The number as which a table keeps a value where it wants a whole one; none
for what is no number. -/
def whole? : Value → Option Number
  | .bool b => some (.int (if b then 1 else 0))
  | .int n => some (.int n)
  | .float x => if x.isNaN then none else some (ofDouble x)
  | .str s => numeral? s
  | _ => none

def ofText (text : String) : Cell :=
  match numeral? text with
  | some n => .numeral n
  | none =>
    match Json.parse text with
    | .ok j => .document j
    | .error e => .unreadable text e

/-- The cell that structured data becomes. -/
def ofJson : Json → Cell
  | .int n => (numeral? (toString n)).elim (.document (.int n)) .numeral
  | .float x => (numeral? (floatText x)).elim (.document (.float x)) .numeral
  | j => .document j

def readError? : Cell → Option (String × Json.ReadError)
  | .unreadable text reason => some (text, reason)
  | _ => none

/-- The payload as a value; there is none in an unreadable cell. -/
def value : Cell → Value
  | .document j => .ofJson j
  | .numeral n => .ofNumber n
  | .unreadable _ _ => .none

end Cell

/-- A row of the table. -/
structure Row (τ : Type) where
  payload : Cell
  updatedAt : τ
  ttl : Option τ
  policy : String
  lastAccessed : Option τ

namespace Row

variable {τ : Type} [Instant τ]

def lifetime (r : Row τ) : Lifetime τ :=
  ⟨r.updatedAt, r.lastAccessed, r.ttl, Policy.ofStored r.policy⟩

def isExpired (r : Row τ) (now : τ) : Bool := r.lifetime.isExpired now

end Row

end ExpiringStore
