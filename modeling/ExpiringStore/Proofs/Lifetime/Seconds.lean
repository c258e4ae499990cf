import ExpiringStore.Proofs.Lifetime.Amount
import ExpiringStore.Proofs.Number.Rounded

/-!
# Durations in seconds

A duration is a whole number of microseconds, and as seconds it is the nearest double.  Whole
seconds are not jumped over by rounding, and below 2^32 seconds the next ones are not reached: a
microsecond is more than a unit of the last place.

    0 < micros < 2^32 · 10^6   →   the double is cut to micros / 10^6           (truncate_toSeconds)
-/

namespace ExpiringStore

open Float.Model (UnpackedFloat)
open Float.Model.UnpackedFloat (Sign ExtendedMantissa Accuracy)

namespace Double

variable {m : Nat}

/-- The fraction that a quotient leaves is told by how its double compares with the divisor. -/
theorem tells_fraction {r d : Nat} (h : r < d) :
    Accuracy.Tells (UnpackedFloat.accuracyOfFraction r d) d r := by
  refine ⟨h, fun m => ?_⟩
  unfold UnpackedFloat.accuracyOfFraction
  by_cases hzero : r = 0
  · rw [if_pos hzero]
    exact hzero
  · rw [if_neg hzero]
    rcases lt_trichotomy (2 * r) d with hlt | heq | hgt
    · rw [compare_lt_iff_lt.2 hlt]
      exact hlt
    · rw [compare_eq_iff_eq.2 heq]
      exact heq
    · rw [compare_gt_iff_gt.2 hgt]
      exact hgt.le

/-- The digits of a quotient, down to an exponent that is settled by those of its parts. -/
theorem divCore_eq {m₁ m₂ : Nat} {e₁ e₂ t : Int} (ht : min (e₁ - e₂)
      (max ((m₁.log2 : Int) + 1 + e₁ - (m₂.log2 + 1 + e₂) - (53 : Nat)) (-1074)) = t) :
    UnpackedFloat.divCore .binary64 m₁ e₁ m₂ e₂ = (m₁ <<< (e₁ - e₂ - t).toNat / m₂, t,
      UnpackedFloat.accuracyOfFraction (m₁ <<< (e₁ - e₂ - t).toNat % m₂) m₂) := by
  subst ht
  rfl

def million : Nat := 1000000 * 2 ^ 33

theorem log2_million : million.log2 = 52 := (Nat.log2_eq_iff (by decide)).2 (by decide)

theorem unpack_micros (hm : 0 < m) (h : m < 2 ^ 53) :
    (Float.ofScientific m true 6).toModel.unpack =
      packed (UnpackedFloat.roundWithAccuracy .binary64 .positive
        (full m * 2 ^ 53 / million) (m.log2 - 72)
        (UnpackedFloat.accuracyOfFraction (full m * 2 ^ 53 % million) million)) := by
  have hlt : m.log2 < 53 := (Nat.log2_lt hm.ne').2 h
  have hmillion : (Float.ofBits 4696837146684686336).toModel.unpack =
      .finite .positive million (-33) (by decide) := rfl
  have hfast : Float.ofScientific m true 6 =
      m.toUInt64.toFloat / Float.ofBits 4696837146684686336 := by
    unfold Float.ofScientific
    rw [dif_pos ⟨h, by decide⟩]
    rfl
  have hshift : ((m.log2 : Int) - 52 - -33 - (m.log2 - 72)).toNat = 53 := by omega
  have hcore : UnpackedFloat.divCore .binary64 (full m) (m.log2 - 52) million (-33) =
      (full m <<< ((m.log2 : Int) - 52 - -33 - (m.log2 - 72)).toNat / million, (m.log2 : Int) - 72,
        _) := divCore_eq (by rw [log2_full hm h, log2_million]; omega)
  rw [hshift, Nat.shiftLeft_eq] at hcore
  rw [hfast]
  show UnpackedFloat.unpack .binary64 (UnpackedFloat.pack .binary64
    (UnpackedFloat.div .binary64 m.toUInt64.toFloat.toModel.unpack
      (Float.ofBits 4696837146684686336).toModel.unpack)) = _
  rw [unpack_toFloat hm h, hmillion]
  unfold UnpackedFloat.div
  dsimp only
  rw [hcore]
  rfl

/-- What is computed of the quotient is exact, but for the part of a unit that two bits tell. -/
theorem quotient_value (hm : 0 < m) (h : m < 2 ^ 53) :
    (((full m * 2 ^ 53 / million : Nat) : ℚ) + ((full m * 2 ^ 53 % million : Nat) : ℚ) / million) *
      2 ^ ((m.log2 : Int) - 72) = m / 1000000 := by
  have hlt : m.log2 < 53 := (Nat.log2_lt hm.ne').2 h
  have hwhole : ((full m * 2 ^ 53 / million : Nat) : ℚ) +
      ((full m * 2 ^ 53 % million : Nat) : ℚ) / million = full m * 2 ^ 53 / million := by
    have hmillion : (million : ℚ) ≠ 0 := by norm_num [million]
    field_simp
    exact_mod_cast Nat.div_add_mod' _ _
  have hlength : (2 : ℚ) ^ (52 - m.log2) * 2 ^ m.log2 = 2 ^ 52 := by
    rw [← pow_add]
    congr 1
    omega
  rw [hwhole, zpow_sub₀ two_ne_zero, zpow_natCast]
  unfold full million
  push_cast
  calc _ = (m : ℚ) * (2 ^ (52 - m.log2) * 2 ^ m.log2) * 2 ^ 53 / (1000000 * 2 ^ 33 * 2 ^ 72) := by
        field_simp
        norm_cast
    _ = m / 1000000 := by
        rw [hlength]
        ring

theorem le_quotient (hm : 0 < m) (h : m < 2 ^ 53) : 2 ^ 52 ≤ full m * 2 ^ 53 / million := by
  have hfull : 2 ^ 52 ≤ full m := (Nat.le_log2 (full_pos hm).ne').1 (log2_full hm h).ge
  rw [Nat.le_div_iff_mul_le (by decide)]
  exact Nat.mul_le_mul hfull (by decide)

/-- The seconds of a duration are a multiple of a unit of their last place, and half of one away
from the exact ones at most. -/
theorem value_micros (hm : 0 < m) (h : m < 2 ^ 32 * 1000000) :
    ∃ t j : Int, t ≤ -21 ∧
      (Number.float (Float.ofScientific m true 6)).value? = some (j * 2 ^ t : ℚ) ∧
      |(j * 2 ^ t : ℚ) - m / 1000000| ≤ 2 ^ (t - 1) := by
  have hsmall : m < 2 ^ 53 := h.trans (by decide)
  have hquotient := le_quotient hm hsmall
  have hexact := quotient_value hm hsmall
  have hpack := unpack_micros hm hsmall
  have htells := tells_fraction (Nat.mod_lt (full m * 2 ^ 53) (show 0 < million by decide))
  generalize full m * 2 ^ 53 / million = q at hquotient hexact hpack
  generalize full m * 2 ^ 53 % million = r at htells hexact hpack
  have hpos : 0 < q := (Nat.two_pow_pos 52).trans_le hquotient
  have hlong : 52 ≤ q.log2 := (Nat.le_log2 hpos.ne').2 hquotient
  obtain ⟨m', e', hround, hfits, hleast, hmost, hnear⟩ :=
    round_near htells .positive hpos (e := (m.log2 : Int) - 72) (by unfold target; omega)
  have hplace : (0 : ℚ) < 2 ^ ((m.log2 : Int) - 72) := zpow_pos two_pos _
  have htarget : target q (m.log2 - 72) ≤ -21 := by
    refine (hasPlace_target .positive hpos).le (k := 32) ?_
    calc |valueOf .positive q (m.log2 - 72)| = q * 2 ^ ((m.log2 : Int) - 72) := abs_valueOf ..
      _ ≤ (q + (r : ℚ) / million) * 2 ^ ((m.log2 : Int) - 72) :=
        mul_le_mul_of_nonneg_right (le_add_of_nonneg_right (by positivity)) hplace.le
      _ = m / 1000000 := hexact
      _ < 2 ^ 32 := by
        rw [div_lt_iff₀ (by norm_num)]
        exact_mod_cast h
  have hcanonical : Canonical (assembled .positive m' e') := by
    rcases Nat.eq_zero_or_pos m' with rfl | hpos'
    · exact trivial
    · rw [assembled_of_pos hpos']
      exact ⟨hfits hpos', by omega⟩
  have hvalue : (m' : ℚ) * 2 ^ e' =
      ((m' * 2 ^ (e' - target q (m.log2 - 72)).toNat : Int) : ℚ) * 2 ^ target q (m.log2 - 72) := by
    push_cast
    rw [mul_assoc, ← two_zpow_eq hleast]
  refine ⟨target q (m.log2 - 72), _, htarget, ?_, hvalue ▸ hexact ▸ hnear⟩
  rw [← hvalue, Number.value?_eq, hpack, hround, hcanonical.unpack_pack]
  exact value?_assembled ..

end Double

/-- A whole number is not jumped over by rounding: it is a multiple of the unit as well. -/
theorem whole_le_of_near {t j n : Int} {q : ℚ} (ht : t ≤ 0) (hle : (n : ℚ) ≤ q)
    (near : |(j * 2 ^ t : ℚ) - q| ≤ 2 ^ (t - 1)) : (n : ℚ) ≤ j * 2 ^ t := by
  have hwhole : (n : ℚ) = ((n * 2 ^ (0 - t).toNat : Int) : ℚ) * 2 ^ t := by
    push_cast
    rw [mul_assoc, ← Double.two_zpow_eq ht, zpow_zero, mul_one]
  rw [hwhole] at hle ⊢
  have hunits : ((n * 2 ^ (0 - t).toNat : Int) : ℚ) ≤ j :=
    Int.cast_le.2 (Double.le_of_near hle near)
  exact mul_le_mul_of_nonneg_right hunits (zpow_pos two_pos _).le

namespace Duration

variable {d : Duration}

/-- Microseconds that are positive are brought to seconds by one division. -/
theorem toSeconds_eq (hpos : 0 < d.micros) (h : d.micros < 2 ^ 32 * 1000000) :
    d.toSeconds = Float.ofScientific d.micros.natAbs true 6 := by
  have hsize : (Nat.toDigits 10 d.micros.natAbs).length ≤ 16 :=
    (Nat.length_toDigits_le_iff (by decide) (by decide)).2 (by omega)
  have hsome : (d.micros.natAbs == 0) = false := beq_false_of_ne (by omega)
  unfold toSeconds doubleOfDecimal
  dsimp only
  rw [decide_eq_false (by omega), hsome, if_neg Bool.false_ne_true, if_neg Bool.false_ne_true,
    if_neg (by omega), if_neg (by omega), if_pos (by decide)]
  rfl

/-- As seconds, a duration is cut to its whole seconds. -/
theorem truncate_toSeconds (hpos : 0 < d.micros) (h : d.micros < 2 ^ 32 * 1000000) :
    ∃ x, Binary64.decode d.toSeconds = .finite x ∧ x.truncate = d.micros / 1000000 := by
  obtain ⟨t, j, ht, hvalue, hnear⟩ :=
    Double.value_micros (m := d.micros.natAbs) (by omega) (by omega)
  rw [← toSeconds_eq hpos h] at hvalue
  obtain ⟨x, decodes, hx⟩ := Number.finite_of_value? hvalue
  refine ⟨x, decodes, ?_⟩
  have hmicros : ((d.micros.natAbs : Nat) : ℚ) = d.micros := by
    rw [← Int.cast_natCast, Int.natAbs_of_nonneg hpos.le]
  rw [hmicros] at hnear
  have hleast : ((d.micros / 1000000 : Int) : ℚ) ≤ j * 2 ^ t := by
    refine whole_le_of_near (by omega) ?_ hnear
    rw [le_div_iff₀ (by norm_num)]
    exact_mod_cast Int.ediv_mul_le d.micros (by decide)
  have hmost : (j * 2 ^ t : ℚ) < ((d.micros / 1000000 : Int) : ℚ) + 1 := by
    have hhalf : (2 : ℚ) ^ (t - 1) ≤ 2 ^ (-22 : Int) := zpow_le_zpow_right₀ one_le_two (by omega)
    have hmicro : (d.micros : ℚ) + 1 ≤ (((d.micros / 1000000 : Int) : ℚ) + 1) * 1000000 := by
      exact_mod_cast Int.lt_ediv_add_one_mul_self d.micros (by decide)
    have hfar := (abs_le.1 hnear).2
    norm_num at hhalf
    linarith
  rw [← hx] at hleast hmost
  exact Dyadic.truncate_eq (by omega) hleast hmost

end Duration

end ExpiringStore
