import ExpiringStore.Proofs.Number.Double

/-!
# Whole numbers as doubles

Rounding cuts a mantissa to the digits that there is place for.  What has no more digits is not
rounded, so that a whole number of at most 53 binary digits is a double; one with more digits still
has a double near it, as long as its exponent is within the range.

    |n| < 2^53            →   the double of n has the value n                (value_doubleOfInt)
    |n| < 2^1023          →   n has a double, and it is finite               (doubleOfInt?_finite)
-/

namespace ExpiringStore

open Float.Model (UnpackedFloat)
open Float.Model.UnpackedFloat (Sign ExtendedMantissa Accuracy)

namespace Double

/-! ## Rounding -/

theorem mantissa_shiftRight (em : ExtendedMantissa) (n : Nat) :
    (em >>> n).mantissa = em.mantissa / 2 ^ n := by
  show (n.repeat ExtendedMantissa.shiftRightOne em).mantissa = _
  induction n with
  | zero => simp [Nat.repeat]
  | succ n ih =>
    show (n.repeat ExtendedMantissa.shiftRightOne em).mantissa / 2 = _
    rw [ih, Nat.div_div_eq_div_mul, Nat.pow_succ]

/-- No digit is lost if what is shifted out is zero. -/
theorem shiftRight_of_dvd {m n : Nat} (h : 2 ^ n ∣ m) :
    (⟨m, false, false⟩ : ExtendedMantissa) >>> n = ⟨m / 2 ^ n, false, false⟩ := by
  show n.repeat ExtendedMantissa.shiftRightOne ⟨m, false, false⟩ = _
  induction n with
  | zero => simp [Nat.repeat]
  | succ n ih =>
    show (n.repeat ExtendedMantissa.shiftRightOne _).shiftRightOne = _
    rw [ih ((Nat.pow_dvd_pow 2 n.le_succ).trans h)]
    have heven : m / 2 ^ n % 2 = 0 := by
      obtain ⟨k, rfl⟩ := h
      rw [Nat.pow_succ, Nat.mul_assoc, Nat.mul_div_cancel_left _ (Nat.two_pow_pos n)]
      exact Nat.mul_mod_right 2 k
    simp [ExtendedMantissa.shiftRightOne, heven, Nat.div_div_eq_div_mul, Nat.pow_succ]

/-- The exponent that a double gives a positive value. -/
def target (m : Nat) (e : Int) : Int := max (m.log2 + 1 + e - 53) (-1074)

theorem log2_div_two_pow {m n : Nat} (hm : 0 < m) (h : n ≤ m.log2) :
    (m / 2 ^ n).log2 = m.log2 - n := by
  have hle : 2 ^ n ≤ m := (Nat.le_log2 hm.ne').1 h
  have hpos : 0 < m / 2 ^ n := Nat.div_pos hle (Nat.two_pow_pos n)
  refine (Nat.log2_eq_iff hpos.ne').2 ⟨?_, ?_⟩
  · rw [Nat.le_div_iff_mul_le (Nat.two_pow_pos n), ← Nat.pow_add, Nat.sub_add_cancel h]
    exact Nat.log2_self_le hm.ne'
  · rw [Nat.div_lt_iff_lt_mul (Nat.two_pow_pos n), ← Nat.pow_add]
    have : m.log2 - n + 1 + n = m.log2 + 1 := by omega
    rw [this]
    exact Nat.lt_log2_self

theorem log2_mul_two_pow {m : Nat} (hm : 0 < m) (n : Nat) : (m * 2 ^ n).log2 = m.log2 + n := by
  refine (Nat.log2_eq_iff (Nat.mul_pos hm (Nat.two_pow_pos n)).ne').2 ⟨?_, ?_⟩
  · rw [Nat.pow_add]
    exact Nat.mul_le_mul_right _ (Nat.log2_self_le hm.ne')
  · rw [Nat.add_right_comm, Nat.pow_add]
    exact Nat.mul_lt_mul_of_pos_right Nat.lt_log2_self (Nat.two_pow_pos n)

/-- A mantissa and an exponent with a sign. -/
def assembled (s : Sign) (m : Nat) (e : Int) : UnpackedFloat :=
  if h : m = 0 then .zero s else .finite s m e (Nat.pos_of_ne_zero h)

theorem assembled_of_pos {s : Sign} {m : Nat} {e : Int} (h : 0 < m) :
    assembled s m e = .finite s m e h := dif_neg h.ne'

/-- The digits that are kept of a mantissa, and the exponent that they are given. -/
def shifted (a : Accuracy) (m : Nat) (e : Int) : ExtendedMantissa × Int :=
  (ExtendedMantissa.ofMantissaAndAccuracy m a >>> (target m e - e).toNat,
    e + (target m e - e).toNat)

theorem mantissa_ofAccuracy (m : Nat) (a : Accuracy) :
    (ExtendedMantissa.ofMantissaAndAccuracy m a).mantissa = m := by
  cases a with
  | exact => rfl
  | inexact o => cases o <;> rfl

/-- A value is cut to the digits that there is place for, rounded, and cut once more. -/
theorem round_eq (s : Sign) (m : Nat) (e : Int) (a : Accuracy) :
    UnpackedFloat.roundWithAccuracy .binary64 s m e a =
      assembled s (shifted .exact (shifted a m e).1.roundedMantissa (shifted a m e).2).1.mantissa
        (shifted .exact (shifted a m e).1.roundedMantissa (shifted a m e).2).2 := rfl

theorem shifted_of_dvd {m : Nat} {e : Int} (hle : e ≤ target m e)
    (hdvd : 2 ^ (target m e - e).toNat ∣ m) :
    shifted .exact m e = (⟨m / 2 ^ (target m e - e).toNat, false, false⟩, target m e) := by
  show ((⟨m, false, false⟩ : ExtendedMantissa) >>> (target m e - e).toNat, _) = _
  rw [shiftRight_of_dvd hdvd]
  congr 1
  omega

/-- What fits a double is not rounded. -/
theorem round_of_dvd {m : Nat} {e : Int} (s : Sign) (hm : 0 < m) (hle : e ≤ target m e)
    (hdvd : 2 ^ (target m e - e).toNat ∣ m) :
    UnpackedFloat.roundWithAccuracy .binary64 s m e .exact =
      assembled s (m / 2 ^ (target m e - e).toNat) (target m e) := by
  have hshort : (target m e - e).toNat ≤ m.log2 :=
    (Nat.le_log2 hm.ne').2 (Nat.le_of_dvd hm hdvd)
  have hagain : target (m / 2 ^ (target m e - e).toNat) (target m e) = target m e := by
    have hlog := log2_div_two_pow hm hshort
    generalize hn : (target m e - e).toNat = n at hlog hshort ⊢
    unfold target at hle hn ⊢
    rw [hlog]
    omega
  rw [round_eq, shifted_of_dvd hle hdvd]
  dsimp only [ExtendedMantissa.roundedMantissa, ExtendedMantissa.accuracy,
    UnpackedFloat.Accuracy.roundToNearestEven]
  rw [shifted_of_dvd hagain.ge (by rw [hagain]; simp), hagain]
  simp

theorem unpack_pack {s : Sign} {m : Nat} {e : Int} {hm : 0 < m} (hlog : m.log2 = 52)
    (hleast : 1 ≤ e + 1075) (hmost : e + 1076 < 2048) :
    UnpackedFloat.unpack .binary64 (UnpackedFloat.pack .binary64 (.finite s m e hm)) =
      .finite s m e hm := by
  have hm' : 2 ^ 52 ≤ m ∧ m < 2 ^ 53 := (Nat.log2_eq_iff hm.ne').1 hlog
  have hbiased : (biased e : Int) = e + 1075 := by
    unfold biased
    omega
  have hzero : BitVec.ofNat 11 (biased e) ≠ 0#11 := by
    rw [ne_eq, ← BitVec.toNat_inj, BitVec.toNat_ofNat, Nat.mod_eq_of_lt (by omega)]
    show biased e ≠ 0
    omega
  rw [pack_finite, if_neg (by omega), if_pos (by omega), unpack_packComponents]
  unfold ofParts
  rw [if_neg (exponent_ne (by omega)), if_neg hzero, UnpackedFloat.finite.injEq, toNat_hidden,
    BitVec.toNat_ofNat, BitVec.toNat_ofNat, Nat.mod_eq_of_lt (by omega : biased e < 2 ^ 11)]
  exact ⟨rfl, by omega, by omega⟩

theorem isFinite_unpack_pack {s : Sign} {m : Nat} {e : Int} (h : e + 1076 < 2048) :
    (UnpackedFloat.unpack .binary64 (UnpackedFloat.pack .binary64 (assembled s m e))).isFinite =
      true := by
  unfold assembled
  split
  · cases s <;> rfl
  · have hbiased : biased e + 1 < 2 ^ 11 := by
      unfold biased
      omega
    rw [pack_finite, if_neg (not_le.2 hbiased)]
    split
    · rw [unpack_packComponents]
      exact isFinite_ofParts (exponent_ne hbiased) _ _
    · rw [unpack_packComponents]
      exact isFinite_ofParts (by decide) _ _

theorem exponent_unpack {b : BitVec 64} {s : Sign} {m : Nat} {e : Int} {hm : 0 < m}
    (h : UnpackedFloat.unpack .binary64 b = .finite s m e hm) : e + 1076 < 2048 := by
  have hlt := (exponentBits b).isLt
  rw [unpack_eq] at h
  unfold ofParts at h
  split at h
  · split at h <;> cases h
  · next hne =>
    have hmost : (exponentBits b).toNat ≠ 2047 := fun heq => hne (BitVec.eq_of_toNat_eq heq)
    split at h
    · next hzero =>
      have hleast : (exponentBits b).toNat = 0 := congrArg BitVec.toNat hzero
      split at h
      · cases h
      · have he := (UnpackedFloat.finite.inj h).2.2
        omega
    · have he := (UnpackedFloat.finite.inj h).2.2
      omega

/-! ## Whole numbers -/

def full (m : Nat) : Nat := m * 2 ^ (52 - m.log2)

theorem log2_full {m : Nat} (hm : 0 < m) (h : m < 2 ^ 53) : (full m).log2 = 52 := by
  have hlt : m.log2 < 53 := (Nat.log2_lt hm.ne').2 h
  rw [full, log2_mul_two_pow hm]
  omega

theorem full_pos {m : Nat} (hm : 0 < m) : 0 < full m := Nat.mul_pos hm (Nat.two_pow_pos _)

theorem target_full {m : Nat} (hm : 0 < m) (h : m < 2 ^ 53) :
    target (full m) ((m.log2 : Int) - 52) = (m.log2 : Int) - 52 := by
  unfold target
  rw [log2_full hm h]
  omega

theorem unpack_toFloat {m : Nat} (hm : 0 < m) (h : m < 2 ^ 53) :
    m.toUInt64.toFloat.toModel.unpack =
      .finite .positive (full m) ((m.log2 : Int) - 52) (full_pos hm) := by
  have hlt : m.log2 < 53 := (Nat.log2_lt hm.ne').2 h
  have hsize : m.toUInt64.toNat = m := by
    show m % 2 ^ 64 = m
    omega
  have hround : UnpackedFloat.ofUInt64 .binary64 m.toUInt64 =
      assembled .positive (full m) ((m.log2 : Int) - 52) := by
    show UnpackedFloat.normalize .binary64 ((m.toUInt64.toNat : Nat) : Int) 0 .positive = _
    rw [hsize]
    unfold UnpackedFloat.normalize
    have hcompare : compare (m : Int) 0 = .gt := compare_gt_iff_gt.2 (by omega)
    rw [hcompare]
    show UnpackedFloat.round .binary64 .positive (m : Int).toNat 0 = _
    rw [Int.toNat_natCast]
    have htarget : target m 0 = (m.log2 : Int) - 52 := by
      unfold target
      omega
    have hshift : (0 - target m 0).toNat = 52 - m.log2 := by omega
    show UnpackedFloat.roundWithAccuracy .binary64 .positive (m <<< (0 - target m 0).toNat)
      (0 - ((0 - target m 0).toNat : Int)) .exact = _
    rw [hshift, Nat.shiftLeft_eq]
    have hexp : (0 : Int) - ((52 - m.log2 : Nat) : Int) = (m.log2 : Int) - 52 := by omega
    rw [hexp]
    show UnpackedFloat.roundWithAccuracy .binary64 .positive (full m) _ .exact = _
    rw [round_of_dvd _ (full_pos hm) (target_full hm h).ge (by rw [target_full hm h]; simp),
      target_full hm h]
    simp
  show UnpackedFloat.unpack .binary64 (UnpackedFloat.pack .binary64 _) = _
  rw [hround, assembled_of_pos (full_pos hm)]
  exact unpack_pack (log2_full hm h) (by omega) (by omega)

/-- A whole number of at most 53 binary digits is a double. -/
theorem unpack_ofScientific {m : Nat} (hm : 0 < m) (h : m < 2 ^ 53) :
    (Float.ofScientific m false 0).toModel.unpack =
      .finite .positive (full m) ((m.log2 : Int) - 52) (full_pos hm) := by
  have hlt : m.log2 < 53 := (Nat.log2_lt hm.ne').2 h
  have hone : (Float.ofBits 0x3FF0000000000000).toModel.unpack =
      .finite .positive (2 ^ 52) (-52) (Nat.two_pow_pos 52) := rfl
  have hfast : Float.ofScientific m false 0 =
      m.toUInt64.toFloat * Float.ofBits 0x3FF0000000000000 := by
    unfold Float.ofScientific
    rw [dif_pos ⟨h, Nat.zero_le _⟩]
    rfl
  have hexp : (m.log2 : Int) - 52 + -52 ≤ (m.log2 : Int) - 52 := by omega
  have htarget : target (full m * 2 ^ 52) ((m.log2 : Int) - 52 + -52) = (m.log2 : Int) - 52 := by
    unfold target
    rw [log2_mul_two_pow (full_pos hm), log2_full hm h]
    omega
  have hshift : ((m.log2 : Int) - 52 - ((m.log2 : Int) - 52 + -52)).toNat = 52 := by omega
  have hround : UnpackedFloat.roundWithAccuracy .binary64 .positive (full m * 2 ^ 52)
      ((m.log2 : Int) - 52 + -52) .exact = assembled .positive (full m) ((m.log2 : Int) - 52) := by
    rw [round_of_dvd _ (Nat.mul_pos (full_pos hm) (Nat.two_pow_pos 52))
      (by rw [htarget]; exact hexp)
      (by rw [htarget, hshift]; exact Nat.dvd_mul_left _ _), htarget, hshift,
      Nat.mul_div_cancel _ (Nat.two_pow_pos 52)]
  rw [hfast]
  show UnpackedFloat.unpack .binary64 (UnpackedFloat.pack .binary64
    (UnpackedFloat.mul .binary64 m.toUInt64.toFloat.toModel.unpack
      (Float.ofBits 0x3FF0000000000000).toModel.unpack)) = _
  rw [unpack_toFloat hm h, hone]
  show UnpackedFloat.unpack .binary64 (UnpackedFloat.pack .binary64
    (UnpackedFloat.roundWithAccuracy .binary64 .positive _ _ .exact)) = _
  rw [hround, assembled_of_pos (full_pos hm)]
  exact unpack_pack (log2_full hm h) (by omega) (by omega)

/-! ## Large whole numbers -/

theorem roundedMantissa_le (em : ExtendedMantissa) : em.roundedMantissa ≤ em.mantissa + 1 := by
  obtain ⟨m, r, s⟩ := em
  cases r with
  | false => cases s <;> exact Nat.le_succ m
  | true =>
    cases s with
    | false =>
      show m + m % 2 ≤ m + 1
      omega
    | true => exact le_rfl

theorem shifted_exponent {m : Nat} {e : Int} (hle : e ≤ target m e) (a : Accuracy) :
    (shifted a m e).2 = target m e := by
  show e + ((target m e - e).toNat : Int) = _
  omega

theorem mantissa_shifted (a : Accuracy) (m : Nat) (e : Int) :
    (shifted a m e).1.mantissa = m / 2 ^ (target m e - e).toNat := by
  show (ExtendedMantissa.ofMantissaAndAccuracy m a >>> (target m e - e).toNat).mantissa = _
  rw [mantissa_shiftRight, mantissa_ofAccuracy]

/-- What is kept of a mantissa and rounded has one digit too many at most, and then it is a power
of two. -/
theorem rounded_le {m : Nat} {e : Int} (hle : e ≤ target m e) (a : Accuracy) :
    (shifted a m e).1.roundedMantissa ≤ 2 ^ 53 := by
  refine (roundedMantissa_le _).trans ?_
  show (shifted a m e).1.mantissa < _
  rw [mantissa_shifted]
  have hshift : m.log2 + 1 ≤ 53 + (target m e - e).toNat := by
    unfold target at hle ⊢
    omega
  refine (Nat.div_lt_iff_lt_mul (Nat.two_pow_pos _)).2 ?_
  rw [← Nat.pow_add]
  exact Nat.lt_log2_self.trans_le (Nat.pow_le_pow_right (by decide) hshift)

/-- Rounding raises the exponent by one at most. -/
theorem round_exponent {m : Nat} {e : Int} (s : Sign) (hle : e ≤ target m e) :
    ∃ m' e', UnpackedFloat.roundWithAccuracy .binary64 s m e .exact = assembled s m' e' ∧
      e' ≤ target m e + 1 := by
  rw [round_eq]
  refine ⟨_, _, rfl, ?_⟩
  have hrounded := rounded_le hle .exact
  rw [shifted_exponent hle]
  generalize (shifted .exact m e).1.roundedMantissa = r at hrounded ⊢
  show target m e + ((target r (target m e) - target m e).toNat : Int) ≤ _
  have hlog : r.log2 ≤ 53 := by
    rcases Nat.eq_zero_or_pos r with rfl | hpos
    · decide
    · exact Nat.lt_succ_iff.1 ((Nat.log2_lt hpos.ne').2 (hrounded.trans_lt (by decide)))
  have hmost : target r (target m e) ≤ target m e + 1 := by
    have hbound : -1074 ≤ target m e := le_max_right _ _
    generalize target m e = t at hbound ⊢
    unfold target
    omega
  omega

theorem unpack_ofScientific_large {m : Nat} (h : 2 ^ 53 ≤ m) :
    (Float.ofScientific m false 0).toModel.unpack = UnpackedFloat.unpack .binary64
      (UnpackedFloat.pack .binary64 (UnpackedFloat.roundWithAccuracy .binary64 .positive
        (m * 2 ^ 53) (-53) .exact)) := by
  have hm : 0 < m := (Nat.two_pow_pos 53).trans_le h
  have hslow : Float.ofScientific m false 0 = Float.ofModel (Float.Model.ofScientific m 0) := by
    unfold Float.ofScientific
    rw [dif_neg fun hfast => not_le.2 hfast.1 h]
    rfl
  rw [hslow]
  show UnpackedFloat.unpack .binary64 (UnpackedFloat.pack .binary64
    (UnpackedFloat.ofScientific .binary64 m 0)) = _
  unfold UnpackedFloat.ofScientific
  have hbits : Float.Model.Format.binary64.mantissaBits = 53 := rfl
  rw [dif_neg hm.ne', if_neg (by decide), if_neg (by simp), if_pos le_rfl]
  unfold UnpackedFloat.mul
  dsimp only
  rw [hbits, Nat.shiftLeft_eq, Int.toNat_zero, Nat.pow_zero, Nat.mul_one, add_zero]
  rfl

/-- The double nearest to a whole number that is not too large is finite. -/
theorem isFinite_ofScientific {m : Nat} (h : m.log2 < 1023) :
    (Float.ofScientific m false 0).toModel.unpack.isFinite = true := by
  rcases Nat.eq_zero_or_pos m with rfl | hm
  · rfl
  · by_cases hsmall : m < 2 ^ 53
    · rw [unpack_ofScientific hm hsmall]
      rfl
    · rw [unpack_ofScientific_large (not_lt.1 hsmall)]
      have hlog : 53 ≤ m.log2 := (Nat.le_log2 hm.ne').2 (not_lt.1 hsmall)
      have htarget : target (m * 2 ^ 53) (-53) = (m.log2 : Int) - 52 := by
        unfold target
        rw [log2_mul_two_pow hm]
        omega
      obtain ⟨m', e', hround, he⟩ :=
        round_exponent (m := m * 2 ^ 53) (e := -53) .positive (by omega)
      rw [hround]
      exact isFinite_unpack_pack (by omega)

theorem isFinite_neg {x : Float} (h : x.toModel.unpack.isFinite = true) :
    (-x).toModel.unpack.isFinite = true := by
  show (UnpackedFloat.unpack .binary64
    (UnpackedFloat.pack .binary64 x.toModel.unpack.neg)).isFinite = true
  cases hx : x.toModel.unpack with
  | infinity s =>
    rw [hx] at h
    cases h
  | notANumber =>
    rw [hx] at h
    cases h
  | zero s => cases s <;> rfl
  | finite s m e hm =>
    have he := exponent_unpack hx
    have hassembled : (UnpackedFloat.finite s m e hm).neg = assembled (-s) m e :=
      (assembled_of_pos hm).symm
    rw [hassembled]
    exact isFinite_unpack_pack he

theorem isNaN_ofScientific (m : Nat) : (Float.ofScientific m false 0).isNaN = false := by
  rcases Nat.eq_zero_or_pos m with rfl | hm
  · rfl
  · show (Float.ofScientific m false 0).toModel.unpack.isNaN = false
    by_cases hsmall : m < 2 ^ 53
    · rw [unpack_ofScientific hm hsmall]
      rfl
    · rw [unpack_ofScientific_large (not_lt.1 hsmall)]
      exact isNaN_unpack_pack (isNaN_round _ _ _ _)

theorem isNaN_neg {x : Float} (h : x.isNaN = false) : (-x).isNaN = false := by
  replace h : x.toModel.unpack.isNaN = false := h
  refine isNaN_unpack_pack ?_
  cases hx : x.toModel.unpack with
  | notANumber =>
    rw [hx] at h
    cases h
  | _ => rfl

theorem value_full {s : Sign} {k : Nat} (hk : 0 < k) (hlt : k < 2 ^ 53) :
    (⟨s == .negative, full k, (k.log2 : Int) - 52⟩ : Dyadic).value = s.apply k := by
  have hlog : k.log2 < 53 := (Nat.log2_lt hk.ne').2 hlt
  have hwhole : ((k.log2 : Int) - 52).toNat = 0 := by omega
  have hdown : (-((k.log2 : Int) - 52)).toNat = 52 - k.log2 := by omega
  have hpow : ((2 : ℚ) ^ (52 - k.log2)) ≠ 0 := pow_ne_zero _ two_ne_zero
  unfold Dyadic.value Dyadic.numerator Dyadic.denominator Dyadic.signed full
  dsimp only
  rw [hwhole, hdown]
  cases s with
  | negative =>
    rw [show (Sign.negative == Sign.negative) = true from rfl]
    simp [Sign.apply, neg_div]
  | positive =>
    rw [show (Sign.positive == Sign.negative) = false from rfl]
    simp [Sign.apply]

end Double

namespace Number

open Double

theorem doubleOfInt?_eq {n : Int} (h : n.natAbs.log2 < 1023) : doubleOfInt? n =
    some (if n < 0 then -Float.ofScientific n.natAbs false 0
      else Float.ofScientific n.natAbs false 0) := by
  have hinf : (Float.ofScientific n.natAbs false 0).isInf = false := by
    have hfinite := isFinite_ofScientific h
    show UnpackedFloat.isInf _ = false
    revert hfinite
    cases (Float.ofScientific n.natAbs false 0).toModel.unpack <;> intro hfinite <;>
      first | rfl | cases hfinite
  unfold doubleOfInt?
  rw [if_neg (by omega)]
  dsimp only
  rw [hinf]
  rfl

theorem doubleOfInt?_finite {n : Int} (h : n.natAbs.log2 < 1023) :
    ∃ x, doubleOfInt? n = some x ∧ x.isFinite = true := by
  refine ⟨_, doubleOfInt?_eq h, ?_⟩
  split
  · exact isFinite_neg (isFinite_ofScientific h)
  · exact isFinite_ofScientific h

/-- The double of a whole number is a number, even if it is no whole one. -/
theorem isNaN_doubleOfInt? {n : Int} {x : Float} (h : doubleOfInt? n = some x) :
    x.isNaN = false := by
  have hsize := isNaN_ofScientific n.natAbs
  unfold doubleOfInt? at h
  split at h
  · cases h
  · dsimp only at h
    split at h
    · cases h
    · obtain rfl := Option.some.inj h
      split
      · exact isNaN_neg hsize
      · exact hsize

/-- A whole number of at most 53 binary digits is the value of its double. -/
theorem value_doubleOfInt {n : Int} (h : n.natAbs < 2 ^ 53) :
    ∃ x d, doubleOfInt? n = some x ∧ Binary64.decode x = .finite d ∧ d.value = n := by
  have hlog : n.natAbs.log2 < 1023 := by
    rcases Nat.eq_zero_or_pos n.natAbs with h₀ | hpos
    · rw [h₀]
      decide
    · exact ((Nat.log2_lt hpos.ne').2 h).trans (by decide)
  have hx := doubleOfInt?_eq hlog
  rcases Int.lt_trichotomy n 0 with hn | rfl | hn
  · have hpos : 0 < n.natAbs := by omega
    have hlt : n.natAbs.log2 < 53 := (Nat.log2_lt hpos.ne').2 h
    rw [if_pos hn] at hx
    have hunpack : (-Float.ofScientific n.natAbs false 0).toModel.unpack =
        .finite .negative (full n.natAbs) ((n.natAbs.log2 : Int) - 52) (full_pos hpos) := by
      show UnpackedFloat.unpack .binary64 (UnpackedFloat.pack .binary64
        (Float.ofScientific n.natAbs false 0).toModel.unpack.neg) = _
      rw [unpack_ofScientific hpos h]
      exact unpack_pack (log2_full hpos h) (by omega) (by omega)
    refine ⟨_, _, hx, by rw [Binary64.decode_eq, hunpack]; rfl, (value_full hpos h).trans ?_⟩
    show (((-(n.natAbs : Int) : Int)) : ℚ) = n
    congr 1
    omega
  · exact ⟨_, ⟨false, 0, -1074⟩, hx, rfl, by rw [Dyadic.value_zero, Int.cast_zero]⟩
  · have hpos : 0 < n.natAbs := by omega
    rw [if_neg (by omega)] at hx
    refine ⟨_, _, hx, by rw [Binary64.decode_eq, unpack_ofScientific hpos h]; rfl,
      (value_full hpos h).trans ?_⟩
    show (((n.natAbs : Int) : Int) : ℚ) = n
    congr 1
    omega

end Number

end ExpiringStore
