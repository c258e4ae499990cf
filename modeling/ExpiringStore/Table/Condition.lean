import ExpiringStore.Table.Row

/-!
# Conditions on rows

Statements that work on many rows select them by a condition, evaluated in
three-valued logic: a comparison with a missing value is neither true nor
false, and a row is selected only where the condition is true.  The two
conditions, expired and live, are written out separately.

    expired r now   =   ttl present ∧ (sliding ∧ … < now  ∨  ¬ sliding ∧ … < now)
    live r now      =   ttl missing ∨ (sliding ∧ … ≥ now)  ∨  (¬ sliding ∧ … ≥ now)
-/

namespace ExpiringStore

/-- True, false, or unknown (`none`). -/
abbrev Truth := Option Bool

namespace Truth

def and : Truth → Truth → Truth
  | some false, _ => some false
  | _, some false => some false
  | some true, some true => some true
  | _, _ => none

def or : Truth → Truth → Truth
  | some true, _ => some true
  | _, some true => some true
  | some false, some false => some false
  | _, _ => none

def not : Truth → Truth := Option.map (!·)

/-- Only what is true is selected. -/
def holds (t : Truth) : Bool := t == some true

end Truth

namespace Condition

variable {τ : Type} [Instant τ]

/-- A comparison of two values that may be missing. -/
def compare (relation : τ → τ → Bool) : Option τ → Option τ → Truth
  | some a, some b => some (relation a b)
  | _, _ => none

/-- The sum of two values that may be missing. -/
def sum (a b : Option τ) : Option τ :=
  match a, b with
  | some a, some b => Instant.stored (Instant.plus a b)
  | _, _ => none

def sliding (r : Row τ) : Truth := some (r.policy == Policy.sliding.word)

/-- Deadline under a sliding policy: from the last access if there is one. -/
def slidingDeadline (r : Row τ) : Option τ :=
  sum (r.lastAccessed.or (Instant.stored r.updatedAt)) r.ttl

/-- Deadline under any other policy. -/
def absoluteDeadline (r : Row τ) : Option τ := sum (Instant.stored r.updatedAt) r.ttl

def expired (r : Row τ) (now : τ) : Truth :=
  Truth.and (some r.ttl.isSome)
    (Truth.or
      (Truth.and (sliding r) (compare Instant.before (slidingDeadline r) (Instant.stored now)))
      (Truth.and (Truth.not (sliding r))
        (compare Instant.before (absoluteDeadline r) (Instant.stored now))))

def live (r : Row τ) (now : τ) : Truth :=
  Truth.or (some r.ttl.isNone)
    (Truth.or
      (Truth.and (sliding r)
        (compare (fun d n => Instant.notAfter n d) (slidingDeadline r) (Instant.stored now)))
      (Truth.and (Truth.not (sliding r))
        (compare (fun d n => Instant.notAfter n d) (absoluteDeadline r) (Instant.stored now))))

end Condition

end ExpiringStore
