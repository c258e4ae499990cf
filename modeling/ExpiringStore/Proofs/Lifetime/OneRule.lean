import ExpiringStore.Lifetime.Bounded
import ExpiringStore.Proofs.Lifetime.Known
import ExpiringStore.Proofs.Number.Line

/-!
# One rule of expiry

The rule of expiry goes by the deadline of a row that has been read, and the two conditions select
rows in the table.  They are one rule for all rows whose instants are known, whatever the word of
the policy, whether or not there is a last access or a lifetime, and however the sum of a double is
rounded.  The rule is monotone, because numbers are compared by their places on a line.

    expired r now         =   true   if r has expired, else false     (never unknown)
    live r now            =   false  if r has expired, else true      (never unknown)
    now ≤ later           →   what has expired now has expired later             (isExpired_later)
-/

namespace ExpiringStore

namespace Number

def isWhole : Number → Bool
  | .int _ => true
  | .float _ => false

/-- Counted in whole seconds, a length of time can be added to any instant. -/
theorem add?_eq {a b : Number} (hb : b.isLength = true) (whole : b.isWhole = true) :
    a.add? b = some (a.add b) := by
  cases b with
  | float y => cases whole
  | int n =>
    cases a with
    | int m => rfl
    | float x =>
      obtain ⟨y, hy, -⟩ := doubleOfInt?_finite (log2_lt_of_fitsWord hb)
      have hsum : (Number.float x).add? (.int n) = some (.float (x + y)) := by
        show (doubleOfInt? n).bind _ = _
        rw [hy]
        rfl
      unfold add
      rw [hsum]
      rfl

end Number

namespace Row.IsKnown

variable {r : Row Number} {now later : Number} (h : r.IsKnown)

include h

/-- Where lifetimes are whole, no number is too large for the deadline. -/
theorem boundedDeadline_eq (whole : r.ttl.all Number.isWhole = true) :
    r.lifetime.boundedDeadline = some r.lifetime.deadline := by
  refine Lifetime.boundedDeadline_of_add? fun n ht => ?_
  replace ht : r.ttl = some n := ht
  rw [ht] at whole
  exact Number.add?_eq (h.length_known ht) whole

theorem isExpired_later (known : now.isNaN = false) (later_le : now.le later = true)
    (expired : r.isExpired now = true) : r.isExpired later = true := by
  cases ht : r.ttl with
  | none =>
    rw [isExpired_of_permanent ht] at expired
    cases expired
  | some n =>
    rw [isExpired_of_ttl ht] at expired ⊢
    exact Number.lt_of_lt_of_le (h.deadline_known (deadline_of_ttl ht)) known
      (Number.isNaN_of_le later_le) expired later_le

end Row.IsKnown

/-- **The rule and the two conditions are one rule.**  At an instant that is a number, neither
condition on a row whose instants are known is unknown: the one for expired rows holds if the rule
says so, the one for live rows holds if it does not, and just one of them selects the row.  The rule
itself never fails where lifetimes are whole.  From one instant to a later one no row that is
selected as expired ceases to be, and no row begins to be selected as live. -/
theorem Condition.one_rule {r : Row Number} {now : Number} (h : r.IsKnown)
    (known : now.isNaN = false) :
    expired r now = some (r.isExpired now) ∧ live r now = some (!r.isExpired now) ∧
      ((expired r now).holds ^^ (live r now).holds) = true ∧
      (r.ttl.all Number.isWhole = true →
        r.lifetime.boundedExpired now = some (r.isExpired now)) ∧
      ∀ later, now.le later = true →
        ((expired r now).holds = true → (expired r later).holds = true) ∧
        ((live r later).holds = true → (live r now).holds = true) := by
  have hnow := h.isTimed known
  refine ⟨hnow.expired_eq, hnow.live_eq, ?_, fun whole =>
    Lifetime.boundedExpired_of_deadline (h.boundedDeadline_eq whole) now, fun later hle => ?_⟩
  · rw [hnow.expired_holds, hnow.live_holds]
    cases r.isExpired now <;> rfl
  · have hlater := h.isTimed (Number.isNaN_of_le hle)
    have hmono := h.isExpired_later known hle
    rw [hnow.expired_holds, hlater.expired_holds, hnow.live_holds, hlater.live_holds]
    refine ⟨hmono, fun live => ?_⟩
    rw [Bool.not_eq_true', ← Bool.not_eq_true] at live ⊢
    exact mt hmono live

/-- An entry of an unheard-of policy that was read after it was written: it is live at its deadline,
and has expired a quarter of a second later. -/
theorem Condition.one_rule_unrecognized :
    let r : Row Number :=
      ⟨.document .null, .float 100.5, some (.int 10), "sliding", some (.float 105.25)⟩
    r.IsKnown ∧
      expired r (.float 110.5) = some false ∧ live r (.float 110.5) = some true ∧
      expired r (.float 110.75) = some true ∧ live r (.float 110.75) = some false ∧
      r.lifetime.boundedExpired (.float 110.75) = some true ∧
      (expired r (.int 111)).holds = true := by
  intro r
  have hr : r.IsKnown := ⟨by decide, by decide, by decide⟩
  have known : (Number.float 110.5).isNaN = false := by decide
  have known' : (Number.float 110.75).isNaN = false := by decide
  obtain ⟨hexpired, hlive, -⟩ := one_rule hr known
  obtain ⟨hexpired', hlive', -, hrule, hmono⟩ := one_rule hr known'
  have hat : r.isExpired (.float 110.5) = false := by decide +kernel
  have hafter : r.isExpired (.float 110.75) = true := by decide +kernel
  rw [hat] at hexpired hlive
  rw [hafter] at hexpired' hlive' hrule
  exact ⟨hr, hexpired, hlive, hexpired', hlive', hrule rfl,
    (hmono (.int 111) (by decide +kernel)).1 (by rw [hexpired']; rfl)⟩

end ExpiringStore
