import ExpiringStore.Number.Basic
import ExpiringStore.Fault

/-!
# Attempts and delays

A transient fault is met by another attempt after a delay.  Delays grow by a
factor from attempt to attempt up to a limit, and the number of attempts is
limited as well.

    delay n = min (initial · factor ^ n) limit
-/

namespace ExpiringStore

/-- Why a delay has no value. -/
inductive PowerFailure where
  | overflow
  | zeroToNegative
  | tooLargeForDouble
  deriving DecidableEq, Repr

/-- The wording of a refusal. -/
def PowerFailure.text : PowerFailure → String
  | .overflow => "(34, 'Numerical result out of range')"
  | .zeroToNegative => "0.0 cannot be raised to a negative power"
  | .tooLargeForDouble => "int too large to convert to float"

/-- What the computation of delays needs of numbers. -/
class Delay (δ : Type) where
  power : δ → Int → Except PowerFailure δ
  times : δ → δ → Except PowerFailure δ
  before : δ → δ → Bool

/-- A double to a whole power, as the platform computes it.  A finite base has
no infinite power. -/
def powerOfDouble (x : Float) (n : Int) : Except PowerFailure Float :=
  match doubleOfInt? n with
  | none => .error .tooLargeForDouble
  | some e =>
    if x == 0 && n < 0 then .error .zeroToNegative
    else
      let y := Float.pow x e
      if y.isInf && x.isFinite then .error .overflow else .ok y

instance : Delay Float where
  power := powerOfDouble
  times x y := .ok (x * y)
  before x y := decide (x < y)

/-- The greatest power that is computed of a whole number greater than one. -/
def greatestPower : Nat := 10000000

def powerOfWhole (b : Int) (n : Nat) : Except PowerFailure Int :=
  let negative := b < 0 && n % 2 == 1
  if b.natAbs ≤ 1 && 0 < n then .ok (if negative then -1 else b.natAbs)
  else if greatestPower < n then .error .overflow
  else
    let size : Int := Nat.pow b.natAbs n
    .ok (if negative then -size else size)

def doubleOrFailure (x : Number) : Except PowerFailure Float :=
  match x.toDouble? with
  | some d => .ok d
  | none => .error .tooLargeForDouble

/-- A number to a whole power: whole numbers stay whole unless the power is negative. -/
def powerOfNumber (x : Number) (n : Int) : Except PowerFailure Number :=
  match x with
  | .int b =>
    if n < 0 then do return .float (← powerOfDouble (← doubleOrFailure x) n)
    else (powerOfWhole b n.toNat).map .int
  | .float y => (powerOfDouble y n).map .float

instance : Delay Number where
  power := powerOfNumber
  times
    | .int a, .int b => .ok (.int (a * b))
    | a, b => do return .float ((← doubleOrFailure a) * (← doubleOrFailure b))
  before := Number.lt

instance : Delay Int where
  power b n := powerOfWhole b n.toNat
  times a b := .ok (a * b)
  before x y := decide (x < y)

/-- How often to try, and how long to wait in between. -/
structure RetryPolicy (δ : Type) where
  maxAttempts : Int
  initialDelay : δ
  maxDelay : δ
  factor : δ

namespace RetryPolicy

variable {δ : Type} [Delay δ]

/-- The delay after the attempt of this index, counted from zero. -/
def delay (p : RetryPolicy δ) (index : Int) : Except PowerFailure δ := do
  let growth ← Delay.power p.factor index
  let wished ← Delay.times p.initialDelay growth
  return if Delay.before p.maxDelay wished then p.maxDelay else wished

/-- Is there to be another attempt after so many failed ones? -/
def shouldRetry (p : RetryPolicy δ) (f : Fault) (attempts : Int) : Bool :=
  decide (attempts < p.maxAttempts) && f.isTransient

end RetryPolicy

end ExpiringStore
