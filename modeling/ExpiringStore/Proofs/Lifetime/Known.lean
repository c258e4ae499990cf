import ExpiringStore.Proofs.Number.Whole
import ExpiringStore.Proofs.Lifetime.Timed

/-!
# Rows that are decided

The two conditions on rows are written out separately, and each may be unknown.  A row is decided at
an instant if exactly one of them holds.  So it is if the instants in it are known: no sum of a
known instant and a length of time that a table keeps is unknown, and known numbers are in order.

    decided r now   =   live r now holds, unless expired r now holds
    known instants  →   the deadline of r is known, so decided r now          (isTimed, isDecided)
-/

namespace ExpiringStore

namespace Row

variable {τ : Type} [Instant τ]

/-- Is the entry of the row either live or expired, and not both? -/
def IsDecided (r : Row τ) (now : τ) : Prop :=
  (Condition.live r now).holds = !(Condition.expired r now).holds

theorem IsTimed.isDecided {r : Row τ} {now : τ} (h : r.IsTimed now) : r.IsDecided now := by
  unfold IsDecided
  rw [h.live_holds, h.expired_holds]

end Row

/-! ## Numbers -/

namespace Number

/-- Is it a length of time as a table keeps one? -/
def isLength : Number → Bool
  | .int n => fitsWord n
  | .float x => x.isFinite

theorem log2_lt_of_fitsWord {n : Int} (h : fitsWord n = true) : n.natAbs.log2 < 1023 := by
  unfold fitsWord at h
  simp only [Bool.and_eq_true, decide_eq_true_eq] at h
  rcases Nat.eq_zero_or_pos n.natAbs with hzero | hpos
  · rw [hzero]
    decide
  · have hlt : n.natAbs.log2 < 64 := (Nat.log2_lt hpos.ne').2 (by omega)
    omega

theorem isNaN_toDouble {a : Number} (h : a.isNaN = false) : a.toDouble.isNaN = false := by
  cases a with
  | float x => exact h
  | int n =>
    show ((doubleOfInt? n).getD _).isNaN = false
    cases hx : doubleOfInt? n with
    | some x => exact isNaN_doubleOfInt? hx
    | none =>
      dsimp only [Option.getD_none]
      split <;> decide

theorem isFinite_toDouble {b : Number} (h : b.isLength = true) : b.toDouble.isFinite = true := by
  cases b with
  | float x => exact h
  | int n =>
    obtain ⟨x, hx, hfinite⟩ := doubleOfInt?_finite (log2_lt_of_fitsWord h)
    show ((doubleOfInt? n).getD _).isFinite = true
    rw [hx]
    exact hfinite

theorem add_of_doubles {a b : Number} (h : a.add? b = (do
      let x ← a.toDouble?
      let y ← b.toDouble?
      some (.float (x + y)))) : a.add b = .float (a.toDouble + b.toDouble) := by
  unfold add toDouble
  rw [h]
  cases a.toDouble? <;> cases b.toDouble? <;> rfl

theorem add_float (x : Float) (b : Number) : (Number.float x).add b = .float (x + b.toDouble) :=
  add_of_doubles rfl

/-- The sum of two whole numbers is whole, and any other sum is that of the doubles. -/
theorem add_cases (a b : Number) :
    (∃ m n, a.add b = .int (m + n)) ∨ a.add b = .float (a.toDouble + b.toDouble) := by
  cases a with
  | int m =>
    cases b with
    | int n => exact .inl ⟨m, n, rfl⟩
    | float y => exact .inr (add_of_doubles rfl)
  | float x => exact .inr (add_float x b)

/-- A known instant and a length of time have a known sum. -/
theorem isNaN_add {a b : Number} (ha : a.isNaN = false) (hb : b.isLength = true) :
    (a.add b).isNaN = false := by
  rcases add_cases a b with ⟨m, n, hsum⟩ | hsum
  · rw [hsum]
    rfl
  · rw [hsum]
    exact Double.isNaN_add (isNaN_toDouble ha) (isFinite_toDouble hb)

end Number

namespace Row

/-- A row whose instants are known, and whose lifetime is one that a table keeps. -/
structure IsKnown (r : Row Number) : Prop where
  updated : r.updatedAt.isNaN = false
  accessed : r.lastAccessed.all (!·.isNaN) = true
  length : r.ttl.all Number.isLength = true

theorem stored_known {n : Number} (h : n.isNaN = false) : Instant.stored n = some n :=
  if_neg (Bool.eq_false_iff.1 h)

theorem sum_known {a length : Number} (ha : a.isNaN = false) (hlength : length.isLength = true) :
    Condition.sum (some a) (some length) = some (a.add length) :=
  stored_known (Number.isNaN_add ha hlength)

namespace IsKnown

variable {r : Row Number} (h : r.IsKnown)

include h

theorem start_known : r.lifetime.start.isNaN = false := by
  have haccessed := h.accessed
  rw [start_eq]
  split
  · cases hlast : r.lastAccessed with
    | none => exact h.updated
    | some last =>
      rw [hlast] at haccessed
      simpa using haccessed
  · exact h.updated

theorem length_known {n : Number} (ht : r.ttl = some n) : n.isLength = true := by
  have hlength := h.length
  rwa [ht] at hlength

theorem deadline_known {d : Number} (hd : r.lifetime.deadline = some d) : d.isNaN = false := by
  obtain ⟨n, ht, rfl⟩ := Option.map_eq_some_iff.1 hd
  exact Number.isNaN_add h.start_known (h.length_known ht)

/-- At a known instant, the deadline of a row whose instants are known has passed or not. -/
theorem isTimed {now : Number} (known : now.isNaN = false) : r.IsTimed now where
  known := stored_known known
  deadline := by
    rw [conditionDeadline_eq (stored_known h.updated)]
    cases ht : r.ttl with
    | none => exact (Option.map_eq_none_iff.2 ht).symm
    | some n => exact (sum_known h.start_known (h.length_known ht)).trans (deadline_of_ttl ht).symm
  order _ hd := Number.le_eq known (h.deadline_known hd)

theorem isDecided {now : Number} (known : now.isNaN = false) : r.IsDecided now :=
  (h.isTimed known).isDecided

end IsKnown

end Row

end ExpiringStore
