import ExpiringStore.Number.Binary64
import ExpiringStore.Number.Shortest

/-!
# Whole numbers and doubles together

A `Number` is a whole number of any size or a double.  Arithmetic on two whole
numbers is exact and stays whole; as soon as a double takes part, the whole
number is rounded to a double first.  Comparison never rounds: a whole number
and a double are compared by their exact values.

    add (int a) (int b) = int (a + b)
-/

namespace ExpiringStore

/-- A whole number or a double. -/
inductive Number where
  | int (n : Int)
  | float (x : Float)
  deriving Inhabited

namespace Number

/-- A whole number too large for a double has no value as one. -/
def toDouble? : Number → Option Float
  | .int n => doubleOfInt? n
  | .float x => some x

/-- The value as a double; infinite beyond the largest double. -/
def toDouble (a : Number) : Float :=
  a.toDouble?.getD (match a with | .int n => if n < 0 then -(1 / 0) else 1 / 0 | .float x => x)

def isNaN : Number → Bool
  | .int _ => false
  | .float x => x.isNaN

/-- Exact order of two numbers; none when one of them is undefined. -/
def compare? : Number → Number → Option Ordering
  | .int a, .int b => some (compare a b)
  | .float x, .float y =>
    if x < y then some .lt else if y < x then some .gt else if x == y then some .eq else none
  | .int a, .float y =>
    match Binary64.decode y with
    | .finite d => some (d.compareInt a).swap
    | .infinite negative => some (if negative then .gt else .lt)
    | .undefined => none
  | .float x, .int b =>
    match Binary64.decode x with
    | .finite d => some (d.compareInt b)
    | .infinite negative => some (if negative then .lt else .gt)
    | .undefined => none

def lt (a b : Number) : Bool := a.compare? b == some .lt

def le (a b : Number) : Bool :=
  match a.compare? b with
  | some .lt | some .eq => true
  | _ => false

/-- Equal in value. -/
def same (a b : Number) : Bool := a.compare? b == some .eq

/-- None when a whole number that takes part does not fit a double. -/
def add? : Number → Number → Option Number
  | .int a, .int b => some (.int (a + b))
  | a, b => do
    let x ← a.toDouble?
    let y ← b.toDouble?
    some (.float (x + y))

/-- None when a whole number that takes part does not fit a double. -/
def sub? : Number → Number → Option Number
  | .int a, .int b => some (.int (a - b))
  | a, b => do
    let x ← a.toDouble?
    let y ← b.toDouble?
    some (.float (x - y))

/-- Addition with the infinite double for what does not fit. -/
def add (a b : Number) : Number := (a.add? b).getD (.float (a.toDouble + b.toDouble))

/-- Subtraction with the infinite double for what does not fit. -/
def sub (a b : Number) : Number := (a.sub? b).getD (.float (a.toDouble - b.toDouble))

theorem add_int (a b : Int) : add (.int a) (.int b) = .int (a + b) := rfl

theorem sub_int (a b : Int) : sub (.int a) (.int b) = .int (a - b) := rfl

/-- Decimal digits for a whole number, the shortest text that reads back for a double. -/
def text : Number → String
  | .int n => toString n
  | .float x => floatText x

end Number

/-! ## The longest numerals -/

/-- The most decimal digits of a whole number that is read or written: both take
time that grows with the square of their number. -/
def longestNumeral : Nat := 4300

def tooManyDigits (count : Nat) : String :=
  s!"Exceeds the limit ({longestNumeral} digits) for integer string conversion: value has " ++
    s!"{count} digits; use sys.set_int_max_str_digits() to increase the limit"

end ExpiringStore
