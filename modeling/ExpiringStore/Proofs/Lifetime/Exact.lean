import ExpiringStore.Proofs.Lifetime.Ordered
import Mathlib.Algebra.Order.Group.Int
import Mathlib.Algebra.Order.Group.Unbundled.Basic

/-!
# Exact instants

Instants are exact when they are the numbers of an ordered group: comparisons are its order, sums
and differences are its own, and no instant is unknown.  Exact instants are ordered, and so are
their sums; the deadline of a row is the sum of two of them.

    deadline r           =   ttl + the start of the lifetime             (deadline_eq)
    isExpired r now      ↔   start + n < now   where n is the ttl        (isExpired_eq_of_ttl)
-/

namespace ExpiringStore

/-- Instants that are exact numbers. -/
class ExactInstant (τ : Type) extends AddCommGroup τ, LinearOrder τ, IsOrderedAddMonoid τ,
    Instant τ where
  before_eq (a b : τ) : Instant.before a b = decide (a < b)
  notAfter_eq (a b : τ) : Instant.notAfter a b = decide (a ≤ b)
  plus_eq (a b : τ) : Instant.plus a b = a + b
  minus_eq (a b : τ) : Instant.minus a b = a - b
  ofSeconds_zero : (Instant.ofSeconds 0 : τ) = 0
  isUnknown_eq (a : τ) : Instant.isUnknown a = false
  fits_ofSeconds (n : Int) : Instant.fits (Instant.ofSeconds n : τ) = fitsWord n

instance : ExactInstant Int where
  before_eq _ _ := rfl
  notAfter_eq _ _ := rfl
  plus_eq _ _ := rfl
  minus_eq _ _ := rfl
  ofSeconds_zero := rfl
  isUnknown_eq _ := rfl
  fits_ofSeconds _ := rfl

namespace ExactInstant

attribute [simp] before_eq notAfter_eq plus_eq minus_eq isUnknown_eq fits_ofSeconds

variable {τ : Type} [ExactInstant τ]

/-- A length of time is negative if what it is the difference of is the wrong way round. -/
@[simp] theorem isNegative_sub (a b : τ) : Instant.isNegative (a - b) = decide (a < b) := by
  simp [Instant.isNegative, ofSeconds_zero, sub_neg]

instance : MonotoneInstant τ where
  total := le_total
  before_iff a b := by simp
  notAfter_iff a b := by simp
  isUnknown_eq := isUnknown_eq
  isNegative_minus h := by simpa using h
  fits_ofSeconds {n} h := (fits_ofSeconds n).trans h
  plus_le_plus h n := by simpa using h

end ExactInstant

namespace Row

variable {τ : Type} [ExactInstant τ]

theorem deadline_eq (r : Row τ) : r.lifetime.deadline = r.ttl.map (r.lifetime.start + ·) := by
  show r.ttl.map (Instant.plus r.lifetime.start) = _
  congr 1
  funext n
  exact ExactInstant.plus_eq _ n

theorem isExpired_eq_of_ttl {r : Row τ} {n : τ} (h : r.ttl = some n) (now : τ) :
    r.isExpired now = decide (r.lifetime.start + n < now) := by
  rw [isExpired_of_ttl h, ExactInstant.plus_eq, ExactInstant.before_eq]

end Row

end ExpiringStore
