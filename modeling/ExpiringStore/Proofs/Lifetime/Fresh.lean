import ExpiringStore.Lifetime.Expiry
import ExpiringStore.Proofs.Lifetime.Amount

/-!
# Fresh lifetimes

An entry that is written at an instant runs from that instant, whatever its policy.  What it has
left then is computed as the difference of its deadline and the instant.  With whole instants that
is what it was given; with doubles it need not be.  An instant bears a number of seconds if it is.

    left of fresh now n at now   =   (now + n) - now
    now bears n                      that is n, as a duration
    a whole instant bears n      ↔   a duration can hold n                        (bears_int)
-/

namespace ExpiringStore

namespace Lifetime

/-- The lifetime of an entry that is written at an instant. -/
def fresh (now : Number) (n : Int) (p : Policy) : Lifetime Number :=
  ⟨now, some now, some (.int n), p⟩

variable {now : Number} {n : Int}

theorem start_fresh (p : Policy) : (fresh now n p).start = now := by cases p <;> rfl

theorem deadline_fresh (p : Policy) : (fresh now n p).deadline = some (now.add (.int n)) :=
  congrArg (fun start : Number => some (start.add (.int n))) (start_fresh p)

/-- The policy makes no difference to a fresh lifetime. -/
theorem fresh_congr (p p' : Policy) :
    (fresh now n p).isExpired now = (fresh now n p').isExpired now ∧
      (fresh now n p).remainingDuration now = (fresh now n p').remainingDuration now := by
  unfold isExpired remainingDuration remaining
  rw [deadline_fresh, deadline_fresh]
  exact ⟨rfl, rfl⟩

end Lifetime

namespace Duration

theorem ofMicros?_range {n : Int} {d : Duration} (h : ofMicros? n = .ok d) :
    d.micros.fdiv microsPerDay ≤ 999999999 := by
  unfold ofMicros? at h
  dsimp only at h
  split at h
  · cases h
  · next hrange =>
    obtain rfl := Except.ok.inj h
    rw [Bool.not_eq_true, Bool.or_eq_false_iff] at hrange
    exact not_lt.1 (of_decide_eq_false hrange.2)

theorem ofSeconds?_range {a : Number} {d : Duration} (h : ofSeconds? a = .ok d) :
    d.micros.fdiv microsPerDay ≤ 999999999 := by
  cases a with
  | int n => exact ofMicros?_range h
  | float x =>
    unfold ofSeconds? at h
    dsimp only at h
    split at h
    · cases h
    · cases h
    · split at h
      · exact ofMicros?_range h
      · cases h

theorem ofSeconds?_int {n : Int} (least : 0 ≤ n) (most : n ≤ longest) :
    ofSeconds? (.int n) = .ok ⟨n * microsPerSecond⟩ := by
  unfold longest at most
  have hdays : (n * microsPerSecond).fdiv microsPerDay = n * 1000000 / 86400000000 :=
    Int.fdiv_eq_ediv_of_nonneg _ (by decide)
  have hrange : ¬(decide (n * 1000000 / 86400000000 < -999999999) ||
      decide (999999999 < n * 1000000 / 86400000000)) = true := by
    simp only [Bool.or_eq_true, decide_eq_true_eq]
    omega
  show ofMicros? (n * microsPerSecond) = _
  unfold ofMicros?
  rw [hdays]
  exact if_neg hrange

end Duration

/-- Has an entry that is written at an instant, to live for so many seconds, as many left then? -/
structure Number.Bears (now : Number) (n : Int) : Prop where
  known : now.isNaN = false
  live (p : Policy) : (Lifetime.fresh now n p).isExpired now = false
  left (p : Policy) : (Lifetime.fresh now n p).remainingDuration now =
    .ok (some ⟨n * Duration.microsPerSecond⟩)

namespace Number

variable {now : Number} {n : Int}

theorem bears_of {p : Policy} (known : now.isNaN = false)
    (live : (Lifetime.fresh now n p).isExpired now = false)
    (left : (Lifetime.fresh now n p).remainingDuration now =
      .ok (some ⟨n * Duration.microsPerSecond⟩)) : now.Bears n where
  known := known
  live p' := (Lifetime.fresh_congr p' p).1.trans live
  left p' := (Lifetime.fresh_congr p' p).2.trans left

/-- What an instant bears can be held by a duration. -/
theorem Bears.le_longest (h : now.Bears n) : n ≤ Duration.longest := by
  have hleft := h.left .absolute
  unfold Lifetime.remainingDuration at hleft
  split at hleft
  · cases hleft
  · next left hsome =>
    cases hduration : Duration.ofSeconds? left with
    | error reason =>
      replace hleft : (Duration.ofSeconds? left).map some = _ := hleft
      rw [hduration] at hleft
      cases hleft
    | ok d =>
      replace hleft : (Duration.ofSeconds? left).map some = _ := hleft
      rw [hduration] at hleft
      obtain rfl := Option.some.inj (Except.ok.inj hleft)
      have hrange := Duration.ofSeconds?_range hduration
      replace hrange : (n * 1000000).fdiv 86400000000 ≤ 999999999 := hrange
      rw [Int.fdiv_eq_ediv_of_nonneg _ (by decide)] at hrange
      unfold Duration.longest
      omega

theorem lt_int (a b : Int) : (Number.int a).lt (.int b) = decide (a < b) := by
  show (some (compare a b) == some Ordering.lt) = _
  by_cases h : a < b
  · rw [compare_lt_iff_lt.2 h, decide_eq_true h]
    rfl
  · rw [decide_eq_false h]
    exact beq_false_of_ne fun heq => h (compare_lt_iff_lt.1 (Option.some.inj heq))

theorem bears_int (m : Int) (least : 0 ≤ n) : (Number.int m).Bears n ↔ n ≤ Duration.longest := by
  refine ⟨Bears.le_longest, fun most => bears_of (p := .absolute) rfl ?_ ?_⟩
  · show (Number.int (m + n)).lt (.int m) = false
    rw [lt_int]
    exact decide_eq_false (by omega)
  · have hleft : m + n - m = n := by omega
    have hnegative : Instant.isNegative (Number.int n) = false :=
      (lt_int n 0).trans (decide_eq_false (not_lt.2 least))
    have hremaining : (Lifetime.fresh (.int m) n .absolute).remaining (.int m) =
        some (.int n) := by
      unfold Lifetime.remaining
      rw [Lifetime.deadline_fresh]
      show (if Instant.isNegative (Number.int (m + n - m)) then none
        else some (Number.int (m + n - m))) = _
      rw [hleft, hnegative]
      rfl
    unfold Lifetime.remainingDuration
    rw [hremaining]
    exact congrArg (Except.map some) (Duration.ofSeconds?_int least most)

end Number

end ExpiringStore
