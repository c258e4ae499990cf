import ExpiringStore.Lifetime.Instant
import ExpiringStore.Lifetime.Policy

/-!
# Expiry

An entry with a lifetime expires strictly after its deadline, so at the
deadline itself it is still live.  An entry without a lifetime never expires.

    isExpired l now   ↔   l has a deadline and it lies before now
-/

namespace ExpiringStore

/-- What the liveness of an entry depends on. -/
structure Lifetime (τ : Type) where
  updatedAt : τ
  lastAccessed : Option τ
  length : Option τ
  policy : Policy

namespace Lifetime

variable {τ : Type} [Instant τ]

/-- The instant from which the lifetime runs. -/
def start (l : Lifetime τ) : τ :=
  match l.policy with
  | .absolute => l.updatedAt
  | .sliding => l.lastAccessed.getD l.updatedAt

/-- The last instant at which the entry is live; none if it is permanent. -/
def deadline (l : Lifetime τ) : Option τ := l.length.map (Instant.plus l.start)

def isExpired (l : Lifetime τ) (now : τ) : Bool :=
  match l.deadline with
  | none => false
  | some d => Instant.before d now

/-- The time left; none for a permanent and for an expired entry. -/
def remaining (l : Lifetime τ) (now : τ) : Option τ :=
  l.deadline.bind fun d =>
    let left := Instant.minus d now
    if Instant.isNegative left then none else some left

def remainingDuration (l : Lifetime τ) (now : τ) : Except Duration.Failure (Option Duration) :=
  match l.remaining now with
  | none => .ok none
  | some left => (Instant.toDuration left).map some

end Lifetime

end ExpiringStore
