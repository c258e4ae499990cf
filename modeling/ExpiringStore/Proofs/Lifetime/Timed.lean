import ExpiringStore.Table.Condition

/-!
# Rows whose deadline is known

The rule of expiry and the two conditions on rows are written out separately, and each condition may
be unknown.  Where the deadline that the policy asks for is known and has a place before or after
the instant, they are one rule: the first condition is the rule and the second is its opposite.

    IsTimed r now   →   expired r now   =   isExpired r now                  (expired_eq)
    IsTimed r now   →   live r now      =   not (isExpired r now)            (live_eq)
-/

namespace ExpiringStore

namespace Policy

/-- Only one word means the sliding policy. -/
theorem ofStored_eq_sliding (w : String) :
    Policy.ofStored w = .sliding ↔ w = Policy.sliding.word := by
  unfold ofStored ofWord? word
  by_cases h : w = "ABSOLUTE"
  · subst h; decide
  · by_cases h' : w = "SLIDING" <;> simp [h, h']

end Policy

namespace Truth

@[simp] theorem true_and (t : Truth) : and (some true) t = t := by
  cases t with
  | none => rfl
  | some b => cases b <;> rfl

@[simp] theorem false_and (t : Truth) : and (some false) t = some false := rfl

@[simp] theorem true_or (t : Truth) : or (some true) t = some true := rfl

@[simp] theorem false_or (t : Truth) : or (some false) t = t := by
  cases t with
  | none => rfl
  | some b => cases b <;> rfl

@[simp] theorem or_false (t : Truth) : or t (some false) = t := by
  cases t with
  | none => rfl
  | some b => cases b <;> rfl

@[simp] theorem not_some (b : Bool) : not (some b) = some (!b) := rfl

/-- Of two branches that exclude each other, one is left, unknown or not. -/
theorem branch (b : Bool) (t u : Truth) :
    or (and (some b) t) (and (not (some b)) u) = if b then t else u := by
  cases b <;> simp

end Truth

namespace Row

variable {τ : Type}

/-- The instant from which the lifetime runs, by the word of the policy. -/
theorem start_eq (r : Row τ) : r.lifetime.start =
    if r.policy = Policy.sliding.word then r.lastAccessed.getD r.updatedAt else r.updatedAt := by
  unfold Lifetime.start lifetime
  split
  · next hp =>
    have h : r.policy ≠ Policy.sliding.word := by
      intro e
      rw [(Policy.ofStored_eq_sliding r.policy).2 e] at hp
      cases hp
    rw [if_neg h]
  · next hp => rw [if_pos ((Policy.ofStored_eq_sliding r.policy).1 hp)]

theorem deadline_of_ttl [Instant τ] {r : Row τ} {n : τ} (h : r.ttl = some n) :
    r.lifetime.deadline = some (Instant.plus r.lifetime.start n) := by
  show r.ttl.map _ = _
  rw [h]
  rfl

theorem isExpired_of_permanent [Instant τ] {r : Row τ} (h : r.ttl = none) (now : τ) :
    r.isExpired now = false := by
  have hd : r.lifetime.deadline = none := by
    show r.ttl.map _ = none
    rw [h]
    rfl
  unfold isExpired Lifetime.isExpired
  rw [hd]

theorem isExpired_of_ttl [Instant τ] {r : Row τ} {n : τ} (h : r.ttl = some n) (now : τ) :
    r.isExpired now = Instant.before (Instant.plus r.lifetime.start n) now := by
  unfold isExpired Lifetime.isExpired
  rw [deadline_of_ttl h]

variable [Instant τ]

/-- The deadline by which the conditions go: that of the branch for the policy of the row. -/
def conditionDeadline (r : Row τ) : Option τ :=
  if r.policy == Policy.sliding.word then Condition.slidingDeadline r
  else Condition.absoluteDeadline r

/-- If the last write is known, the deadline is counted from the instant from which the lifetime
runs. -/
theorem conditionDeadline_eq {r : Row τ} (h : Instant.stored r.updatedAt = some r.updatedAt) :
    r.conditionDeadline = Condition.sum (some r.lifetime.start) r.ttl := by
  rw [start_eq]
  unfold conditionDeadline Condition.slidingDeadline Condition.absoluteDeadline
  rw [h]
  simp only [beq_iff_eq]
  split
  · cases r.lastAccessed <;> rfl
  · rfl

/-- A row whose deadline is known, at an instant that is after it or not. -/
structure IsTimed (r : Row τ) (now : τ) : Prop where
  known : Instant.stored now = some now
  deadline : r.conditionDeadline = r.lifetime.deadline
  order : ∀ d ∈ r.lifetime.deadline, Instant.notAfter now d = !Instant.before d now

end Row

namespace Condition

variable {τ : Type} [Instant τ]

/-- The condition for expired rows compares one deadline. -/
theorem expired_branch (r : Row τ) (now : τ) : expired r now =
    Truth.and (some r.ttl.isSome)
      (compare Instant.before r.conditionDeadline (Instant.stored now)) := by
  unfold expired sliding
  rw [Truth.branch]
  unfold Row.conditionDeadline
  split <;> rfl

/-- The condition for live rows compares the same deadline. -/
theorem live_branch (r : Row τ) (now : τ) : live r now =
    Truth.or (some r.ttl.isNone)
      (compare (fun d n => Instant.notAfter n d) r.conditionDeadline (Instant.stored now)) := by
  unfold live sliding
  rw [Truth.branch]
  unfold Row.conditionDeadline
  split <;> rfl

end Condition

namespace Row.IsTimed

variable {τ : Type} [Instant τ] {r : Row τ} {now : τ}

/-- The condition for expired rows is never unknown, and is the rule of expiry. -/
theorem expired_eq (h : r.IsTimed now) : Condition.expired r now = some (r.isExpired now) := by
  rw [Condition.expired_branch, h.known, h.deadline]
  cases ht : r.ttl with
  | none => exact congrArg some (isExpired_of_permanent ht now).symm
  | some n =>
    rw [isExpired_of_ttl ht, deadline_of_ttl ht]
    exact Truth.true_and _

/-- The condition for live rows is never unknown, and is the opposite of the rule of expiry. -/
theorem live_eq (h : r.IsTimed now) : Condition.live r now = some (!r.isExpired now) := by
  rw [Condition.live_branch, h.known, h.deadline]
  cases ht : r.ttl with
  | none => exact congrArg (some !·) (isExpired_of_permanent ht now).symm
  | some n =>
    rw [isExpired_of_ttl ht, deadline_of_ttl ht, ← h.order _ (deadline_of_ttl ht)]
    exact Truth.false_or _

theorem expired_holds (h : r.IsTimed now) :
    (Condition.expired r now).holds = r.isExpired now := by
  rw [h.expired_eq]
  cases r.isExpired now <;> rfl

theorem live_holds (h : r.IsTimed now) : (Condition.live r now).holds = !r.isExpired now := by
  rw [h.live_eq]
  cases r.isExpired now <;> rfl

end Row.IsTimed

end ExpiringStore
