import ExpiringStore.Lifetime.Expiry

/-!
# Deadlines within bounds

A sum or a difference in which a double takes part needs the other number as a
double too, and a whole number may be too large for one.  Then there is no
deadline and no time left to speak of.
-/

namespace ExpiringStore.Lifetime

/-- The deadline, none for a permanent entry, unless a number is too large. -/
def boundedDeadline (l : Lifetime Number) : Option (Option Number) :=
  match l.length with
  | none => some none
  | some n => (l.start.add? n).map some

/-- Has the entry expired?  Unknown if a number is too large. -/
def boundedExpired (l : Lifetime Number) (now : Number) : Option Bool :=
  l.boundedDeadline.map fun
    | none => false
    | some d => d.lt now

theorem boundedDeadline_of_add? {l : Lifetime Number}
    (h : ∀ n, l.length = some n → l.start.add? n = some (l.start.add n)) :
    l.boundedDeadline = some l.deadline := by
  unfold boundedDeadline deadline
  cases hn : l.length with
  | none => rfl
  | some n => exact congrArg (Option.map some) (h n hn)

/-- Where the deadline is within bounds, the rule of expiry is. -/
theorem boundedExpired_of_deadline {l : Lifetime Number} (h : l.boundedDeadline = some l.deadline)
    (now : Number) : l.boundedExpired now = some (l.isExpired now) := by
  unfold boundedExpired isExpired
  rw [h]
  cases l.deadline <;> rfl

/-- The time left as a duration. -/
def boundedRemaining (l : Lifetime Number) (now : Number) :
    Option (Except Duration.Failure (Option Duration)) :=
  l.boundedDeadline.bind fun
    | none => some (.ok none)
    | some d => (d.sub? now).map fun left =>
      if left.lt (.int 0) then .ok none else (Duration.ofSeconds? left).map some

end ExpiringStore.Lifetime
