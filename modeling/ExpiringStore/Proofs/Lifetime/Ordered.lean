import ExpiringStore.Proofs.Lifetime.Timed
import Mathlib.Order.Defs.PartialOrder

/-!
# Ordered instants

Instants are ordered when all of them are known and compared as numbers are.  Their sums may be
rounded.  Over ordered instants the rule of expiry and the two conditions on rows are one rule, and
they are complements.  Where rounding keeps the order of sums, a lifetime that runs from a later
instant does not end earlier.  The doubles that are defined are such instants, and so are exact
numbers.

    isExpired r now           ↔   r has a deadline, and it lies before now      (isExpired_iff)
    holds (expired r now)     =   isExpired r now                               (expired_holds)
    holds (live r now)        =   not (isExpired r now)                         (live_holds)
    start ≤ start'            →   start + ttl ≤ start' + ttl                    (plus_le_plus)
-/

namespace ExpiringStore

/-- Instants that are known and compared as numbers are. -/
class OrderedInstant (τ : Type) extends Preorder τ, Instant τ where
  total (a b : τ) : a ≤ b ∨ b ≤ a
  before_iff (a b : τ) : Instant.before a b = true ↔ a < b
  notAfter_iff (a b : τ) : Instant.notAfter a b = true ↔ a ≤ b
  isUnknown_eq (a : τ) : Instant.isUnknown a = false
  /-- However differences are rounded, none of them becomes negative. -/
  isNegative_minus {a b : τ} (h : b ≤ a) : Instant.isNegative (Instant.minus a b) = false
  fits_ofSeconds {n : Int} (h : fitsWord n = true) : Instant.fits (Instant.ofSeconds n : τ) = true

/-- Ordered instants whose sums are in order, however they are rounded. -/
class MonotoneInstant (τ : Type) extends OrderedInstant τ where
  plus_le_plus {a b : τ} (h : a ≤ b) (n : τ) : Instant.plus a n ≤ Instant.plus b n

namespace OrderedInstant

attribute [simp] isUnknown_eq

variable {τ : Type} [OrderedInstant τ]

theorem not_lt_iff {a b : τ} : ¬a < b ↔ b ≤ a := by
  refine ⟨fun hnot => ?_, not_lt_of_ge⟩
  rcases total b a with hle | hle
  · exact hle
  · exact Classical.byContradiction fun h => hnot (lt_of_le_not_ge hle h)

theorem before_eq_false_iff {a b : τ} : Instant.before a b = false ↔ b ≤ a := by
  rw [← Bool.not_eq_true, before_iff, not_lt_iff]

@[simp] theorem stored_eq (t : τ) : Instant.stored t = some t := by simp [Instant.stored]

/-- One instant is not after another if the other is not before it. -/
theorem notAfter_eq (a b : τ) : Instant.notAfter a b = !Instant.before b a := by
  rw [Bool.eq_iff_iff, notAfter_iff, Bool.not_eq_true', before_eq_false_iff]

/-- The later of two instants, the first of two that are level. -/
def latest (a b : τ) : τ := if Instant.before a b then b else a

theorem le_latest (a b : τ) : a ≤ latest a b := by
  unfold latest
  split
  · next h => exact le_of_lt ((before_iff a b).1 h)
  · exact le_rfl

end OrderedInstant

namespace Row

variable {τ : Type} [OrderedInstant τ]

theorem isExpired_iff (r : Row τ) (now : τ) :
    r.isExpired now = true ↔ ∃ d, r.lifetime.deadline = some d ∧ d < now := by
  unfold isExpired Lifetime.isExpired
  cases r.lifetime.deadline with
  | none => simp
  | some d => simp [OrderedInstant.before_iff]

theorem isExpired_eq_false_iff_of_ttl {r : Row τ} {n : τ} (h : r.ttl = some n) {now : τ} :
    r.isExpired now = false ↔ now ≤ Instant.plus r.lifetime.start n := by
  rw [isExpired_of_ttl h, OrderedInstant.before_eq_false_iff]

/-- An entry that has expired has expired ever after. -/
theorem isExpired_mono {r : Row τ} {now later : τ} (hle : now ≤ later)
    (h : r.isExpired now = true) : r.isExpired later = true := by
  obtain ⟨d, hd, hlt⟩ := (isExpired_iff r now).1 h
  exact (isExpired_iff r later).2 ⟨d, hd, lt_of_lt_of_le hlt hle⟩

theorem isSome_remaining {r : Row τ} {now : τ} (live : r.isExpired now = false) :
    (r.lifetime.remaining now).isSome = r.ttl.isSome := by
  unfold isExpired Lifetime.isExpired Lifetime.deadline at live
  unfold Lifetime.remaining Lifetime.deadline
  show (Option.bind (r.ttl.map _) _).isSome = _
  cases ht : r.ttl with
  | none => rfl
  | some ttl =>
    have hlater : Instant.before (Instant.plus r.lifetime.start ttl) now = false := by
      have hlength : r.lifetime.length = some ttl := ht
      rwa [hlength] at live
    have hleft := OrderedInstant.isNegative_minus (OrderedInstant.before_eq_false_iff.1 hlater)
    simp [hleft]

theorem isSome_remainingDuration {r : Row τ} {now : τ} {left : Option Duration}
    (live : r.isExpired now = false) (h : r.lifetime.remainingDuration now = .ok left) :
    left.isSome = r.ttl.isSome := by
  rw [← isSome_remaining live]
  unfold Lifetime.remainingDuration at h
  cases hr : r.lifetime.remaining now with
  | none =>
    rw [hr] at h
    obtain rfl := Except.ok.inj h
    rfl
  | some t =>
    simp only [hr] at h
    cases hd : Instant.toDuration t with
    | error reason =>
      rw [hd] at h
      cases h
    | ok d =>
      rw [hd] at h
      obtain rfl := Except.ok.inj h
      rfl

end Row

namespace Condition

variable {τ : Type} [OrderedInstant τ]

theorem isTimed (r : Row τ) (now : τ) : r.IsTimed now where
  known := OrderedInstant.stored_eq now
  deadline := by
    rw [Row.conditionDeadline_eq (OrderedInstant.stored_eq r.updatedAt)]
    show _ = r.ttl.map (Instant.plus r.lifetime.start)
    cases r.ttl with
    | none => rfl
    | some n => exact OrderedInstant.stored_eq _
  order d _ := OrderedInstant.notAfter_eq now d

theorem expired_eq (r : Row τ) (now : τ) : expired r now = some (r.isExpired now) :=
  (isTimed r now).expired_eq

theorem live_eq (r : Row τ) (now : τ) : live r now = some (!r.isExpired now) :=
  (isTimed r now).live_eq

@[simp] theorem expired_holds (r : Row τ) (now : τ) :
    (expired r now).holds = r.isExpired now := (isTimed r now).expired_holds

@[simp] theorem live_holds (r : Row τ) (now : τ) : (live r now).holds = !r.isExpired now :=
  (isTimed r now).live_holds

end Condition

end ExpiringStore
