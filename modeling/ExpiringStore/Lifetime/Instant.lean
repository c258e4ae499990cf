import ExpiringStore.Value.Basic

/-!
# Instants

Clock readings, deadlines and lengths of time are of one type, of which the
store needs an order, sums and differences, and a way to count whole seconds.
Some instants may be unknown (a clock that shows no number): an unknown instant
has no place on the time line, every comparison with it fails, and a table
keeps it as a missing value.

The running store uses `Number`.  What is proved about the store holds for any
instants that are known and in order, most of it even if their sums are
rounded, as those of doubles are.
-/

namespace ExpiringStore

/-- What the store needs of clock readings. -/
class Instant (τ : Type) where
  /-- Strictly earlier. -/
  before : τ → τ → Bool
  /-- Earlier or equal. -/
  notAfter : τ → τ → Bool
  plus : τ → τ → τ
  minus : τ → τ → τ
  ofSeconds : Int → τ
  isUnknown : τ → Bool
  /-- Can a table keep it as a length of time? -/
  fits : τ → Bool
  /-- A length of time as a duration, if it is one. -/
  toDuration : τ → Except Duration.Failure Duration
  /-- The reading as log entries show it. -/
  toValue : τ → Value

/-- Whole numbers are kept in 64 bits. -/
def fitsWord (n : Int) : Bool := -9223372036854775808 ≤ n && n ≤ 9223372036854775807

instance : Instant Number where
  before := Number.lt
  notAfter := Number.le
  plus := Number.add
  minus := Number.sub
  ofSeconds := .int
  isUnknown := Number.isNaN
  fits
    | .int n => fitsWord n
    | .float _ => true
  toDuration := Duration.ofSeconds?
  toValue := Value.ofNumber

instance : Instant Int where
  before a b := a < b
  notAfter a b := a ≤ b
  plus := (· + ·)
  minus := (· - ·)
  ofSeconds n := n
  isUnknown _ := false
  fits := fitsWord
  toDuration n := Duration.ofSeconds? (.int n)
  toValue := .int

namespace Instant

variable {τ : Type} [Instant τ]

def stored (t : τ) : Option τ := if isUnknown t then none else some t

/-- Earlier than zero. -/
def isNegative (t : τ) : Bool := before t (ofSeconds 0)

end Instant

end ExpiringStore
