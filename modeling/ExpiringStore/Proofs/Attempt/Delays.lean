import ExpiringStore.Proofs.Lifetime.Exact
import ExpiringStore.Proofs.Number.Exact
import ExpiringStore.Retry
import ExpiringStore.Proofs.Settings.Loaded
import Mathlib.Algebra.Order.Ring.Rat

/-!
# Exact delays

Fractions as instants and as delays: nothing is rounded.  The settings that are accepted keep the
delays between zero and the limit, and no delay is shorter than the one before.

    p.delay i             =   min (initial · factor ^ i) limit                    (delay_eq)
    accepted settings     →   an exact policy, within its bounds                  (policy_of_load)
-/

namespace ExpiringStore

/-- Fractions of a second.  A duration is rounded to a microsecond. -/
instance : Instant ℚ where
  before a b := decide (a < b)
  notAfter a b := decide (a ≤ b)
  plus := (· + ·)
  minus := (· - ·)
  ofSeconds n := n
  isUnknown _ := false
  fits q := q.den != 1 || fitsWord q.num
  toDuration q := Duration.ofMicros? (roundRatio (q.num * Duration.microsPerSecond) q.den)
  toValue q := .float (doubleOfRatio q.num q.den)

instance : ExactInstant ℚ where
  before_eq _ _ := rfl
  notAfter_eq _ _ := rfl
  plus_eq _ _ := rfl
  minus_eq _ _ := rfl
  ofSeconds_zero := rfl
  isUnknown_eq _ := rfl
  fits_ofSeconds n := by simp [Instant.fits, Instant.ofSeconds]

/-- Fractions have all their powers, except that zero has no negative one. -/
instance : Delay ℚ where
  power x n := if x = 0 ∧ n < 0 then .error .zeroToNegative else .ok (x ^ n)
  times x y := .ok (x * y)
  before x y := decide (x < y)

namespace RetryPolicy

/-- The pause after the attempt of an index, counted from zero. -/
def pauseAfter (p : RetryPolicy ℚ) (i : Nat) : ℚ := min (p.initialDelay * p.factor ^ i) p.maxDelay

theorem delay_eq (p : RetryPolicy ℚ) (i : Nat) : p.delay i = .ok (p.pauseAfter i) := by
  have hpower : Delay.power p.factor (i : Int) = .ok (p.factor ^ i) := by
    show (if p.factor = 0 ∧ (i : Int) < 0 then _ else _) = _
    rw [if_neg fun h => by omega, zpow_natCast]
  unfold delay pauseAfter
  rw [hpower]
  show Except.ok (if decide _ = true then _ else _) = _
  rw [min_def]
  by_cases h : p.initialDelay * p.factor ^ i ≤ p.maxDelay
  · rw [if_pos h, if_neg (by simpa using h)]
  · rw [if_neg h, if_pos (by simpa using h)]

/-- A policy that starts with a delay and does not shrink it, with a limit. -/
structure Grows (p : RetryPolicy ℚ) : Prop where
  initial : 0 ≤ p.initialDelay
  factor : 1 ≤ p.factor
  limit : 0 ≤ p.maxDelay

variable {p : RetryPolicy ℚ}

theorem Grows.pauseAfter_nonneg (h : p.Grows) (i : Nat) : 0 ≤ p.pauseAfter i :=
  le_min (mul_nonneg h.initial (pow_nonneg (zero_le_one.trans h.factor) i)) h.limit

theorem pauseAfter_le (p : RetryPolicy ℚ) (i : Nat) : p.pauseAfter i ≤ p.maxDelay :=
  min_le_right _ _

theorem Grows.pauseAfter_mono (h : p.Grows) {i j : Nat} (hij : i ≤ j) :
    p.pauseAfter i ≤ p.pauseAfter j :=
  min_le_min_right _ (mul_le_mul_of_nonneg_left (pow_le_pow_right₀ h.factor hij) h.initial)

end RetryPolicy

/-! ## Accepted settings -/

namespace Settings

/-- The policy is that of the settings, read exactly. -/
structure Reads (s : Settings) (p : RetryPolicy ℚ) : Prop where
  attempts : p.maxAttempts = s.retryMaxAttempts
  initial : (Number.float s.retryInitialDelay).value? = some p.initialDelay
  limit : (Number.float s.retryMaxDelay).value? = some p.maxDelay
  factor : (Number.float s.retryFactor).value? = some p.factor

/-- Settings that are loaded have an exact policy, which allows one to ten attempts and whose
delays grow. -/
theorem policy_of_load {files files' : Files} {sources : Sources} {s : Settings}
    (h : load files sources = (.ok s, files')) :
    ∃ p : RetryPolicy ℚ, s.Reads p ∧ p.Grows ∧ 1 ≤ p.maxAttempts ∧ p.maxAttempts ≤ 10 := by
  obtain ⟨rfl, hissues⟩ := load_ok h
  simp only [ofSources, List.append_eq_nil_iff] at hissues
  obtain ⟨⟨⟨⟨⟨⟨⟨-, hattempts⟩, hinitial⟩, hfactor⟩, hlimit⟩, -⟩, -⟩, -⟩ := hissues
  obtain ⟨hleast, hmost⟩ := integer_field (by decide) hattempts
  obtain ⟨initial, hi, hi₀, -⟩ := double_field (by decide) hinitial
  obtain ⟨factor, hf, hf₁, -⟩ := double_field (by decide) hfactor
  obtain ⟨limit, hl, hl₀, -⟩ := double_field (by decide) hlimit
  refine ⟨⟨_, initial, limit, factor⟩, ⟨rfl, hi, hl, hf⟩, ⟨?_, ?_, ?_⟩, hleast, hmost⟩
  · exact_mod_cast hi₀
  · exact_mod_cast hf₁
  · exact_mod_cast hl₀

end Settings

end ExpiringStore
