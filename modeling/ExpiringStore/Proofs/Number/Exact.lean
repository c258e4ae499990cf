import ExpiringStore.Number.Basic
import Mathlib.Data.Rat.Floor
import Mathlib.Algebra.Order.Field.Rat
import Mathlib.Tactic.FieldSimp
import Mathlib.Tactic.Positivity

/-!
# The exact value of a number

A finite double is a fraction whose denominator is a power of two, and a whole number is itself.
Comparisons with whole numbers are those of the fractions, and the whole part is that of the
fraction.

    d.value               =   numerator / denominator
    d.compareInt n        =   d.value compared with n                            (compareInt_eq)
    a ≤ x ≤ b             →   x has an exact value, between a and b              (value?_between)
-/

namespace ExpiringStore

namespace Dyadic

def value (d : Dyadic) : ℚ := d.numerator / d.denominator

variable {d : Dyadic} {n : Int}

theorem denominator_pos (d : Dyadic) : 0 < d.denominator := Nat.two_pow_pos _

theorem cast_denominator_pos (d : Dyadic) : (0 : ℚ) < d.denominator :=
  Nat.cast_pos.2 d.denominator_pos

theorem numerator_zero (b : Bool) (e : Int) : (⟨b, 0, e⟩ : Dyadic).numerator = 0 := by
  cases b <;> exact Int.zero_mul _

theorem value_zero (b : Bool) (e : Int) : (⟨b, 0, e⟩ : Dyadic).value = 0 := by
  unfold value
  rw [numerator_zero, Int.cast_zero, zero_div]

theorem value_lt_iff : d.value < n ↔ d.numerator < n * d.denominator := by
  unfold value
  rw [div_lt_iff₀ d.cast_denominator_pos]
  exact_mod_cast Iff.rfl

theorem lt_value_iff : n < d.value ↔ n * d.denominator < d.numerator := by
  unfold value
  rw [lt_div_iff₀ d.cast_denominator_pos]
  exact_mod_cast Iff.rfl

theorem numerator_nonneg (h : 0 ≤ d.value) : 0 ≤ d.numerator := by
  refine not_lt.1 fun hneg => ?_
  have hless : d.value < ((0 : Int) : ℚ) := value_lt_iff.2 (by omega)
  exact absurd hless (not_lt.2 (h.trans_eq' Int.cast_zero))

/-- Comparing a double with a whole number compares the values. -/
theorem compareInt_eq (d : Dyadic) (n : Int) : d.compareInt n = compare d.value (n : ℚ) := by
  unfold compareInt
  rcases lt_trichotomy d.value (n : ℚ) with h | h | h
  · rw [compare_lt_iff_lt.2 h, compare_lt_iff_lt]
    exact value_lt_iff.1 h
  · rw [compare_eq_iff_eq.2 h, compare_eq_iff_eq]
    have hle := mt value_lt_iff.2 h.not_lt
    have hge := mt lt_value_iff.2 h.not_gt
    exact le_antisymm (not_lt.1 hge) (not_lt.1 hle)
  · rw [compare_gt_iff_gt.2 h, compare_gt_iff_gt]
    exact lt_value_iff.1 h

end Dyadic

namespace Binary64

def value? : Binary64 → Option ℚ
  | .finite d => some d.value
  | _ => none

/-- How what is read off a double compares with a whole number. -/
def order (n : Int) : Binary64 → Option Ordering
  | .finite d => some (compare d.value (n : ℚ))
  | .infinite negative => some (if negative then .lt else .gt)
  | .undefined => none

end Binary64

namespace Number

/-- The exact value; what is infinite or undefined has none. -/
def value? : Number → Option ℚ
  | .int n => some n
  | .float x => (Binary64.decode x).value?

theorem value?_float {x : Float} {d : Dyadic} (h : Binary64.decode x = .finite d) :
    (Number.float x).value? = some d.value := congrArg Binary64.value? h

theorem finite_of_value? {x : Float} {q : ℚ} (h : (Number.float x).value? = some q) :
    ∃ d, Binary64.decode x = .finite d ∧ d.value = q := by
  replace h : (Binary64.decode x).value? = some q := h
  cases hx : Binary64.decode x with
  | finite d =>
    rw [hx] at h
    exact ⟨d, rfl, Option.some.inj h⟩
  | infinite negative =>
    rw [hx] at h
    cases h
  | undefined =>
    rw [hx] at h
    cases h

theorem compare?_float_int (x : Float) (n : Int) :
    (Number.float x).compare? (.int n) = (Binary64.decode x).order n := by
  show (match Binary64.decode x with
    | .finite d => _ | .infinite negative => _ | .undefined => _) = _
  cases Binary64.decode x with
  | finite d => exact congrArg some (d.compareInt_eq n)
  | infinite negative => rfl
  | undefined => rfl

theorem compare?_int_float (x : Float) (n : Int) :
    (Number.int n).compare? (.float x) = ((Binary64.decode x).order n).map Ordering.swap := by
  show (match Binary64.decode x with
    | .finite d => _ | .infinite negative => _ | .undefined => _) = _
  cases Binary64.decode x with
  | finite d => exact congrArg (some ·.swap) (d.compareInt_eq n)
  | infinite negative => cases negative <;> rfl
  | undefined => rfl

/-- What lies between two whole numbers has an exact value, and it lies between them. -/
theorem value?_between {x : Float} {a b : Int} (least : (Number.int a).le (.float x) = true)
    (most : (Number.float x).le (.int b) = true) :
    ∃ q : ℚ, (Number.float x).value? = some q ∧ a ≤ q ∧ q ≤ b := by
  unfold le at least most
  rw [compare?_int_float] at least
  rw [compare?_float_int] at most
  cases hx : Binary64.decode x with
  | finite d =>
    rw [hx] at least most
    refine ⟨d.value, value?_float hx, not_lt.1 fun hlt => ?_, not_lt.1 fun hlt => ?_⟩
    · rw [Binary64.order, compare_lt_iff_lt.2 hlt] at least
      cases least
    · rw [Binary64.order, compare_gt_iff_gt.2 hlt] at most
      cases most
  | infinite negative =>
    rw [hx] at least most
    cases negative with
    | true => cases least
    | false => cases most
  | undefined =>
    rw [hx] at least
    cases least

end Number

end ExpiringStore
