import ExpiringStore.Proofs.Number.Canonical

/-!
# Rounding errors

The sum, the difference and the product of two doubles are the exact ones, rounded to the digits
that there is place for.  Rounding is to the nearest, so that it moves a value by half a unit of its
last place at most: what is less than 2^k in size has its last place at 2^(k - 53) or below.

    x + y           is value x + value y, rounded to its last place                  (isRounded_add)
    value (x + y)   =   value x + value y   but for 2^k / 2^54, if that is below 2^k      (near_add)
-/

namespace ExpiringStore

open Float.Model (UnpackedFloat)
open Float.Model.UnpackedFloat (Sign ExtendedMantissa Accuracy)

namespace Double

variable {s : Sign} {m k : Nat} {e : Int}

/-! ## Digits that are shifted out -/

/-- What two bits say of digits that are shifted out, by the size of their place. -/
def Lost (place lost : Nat) : Bool → Bool → Prop
  | false, false => lost = 0
  | false, true => 2 * lost < place
  | true, false => 2 * lost = place
  | true, true => place ≤ 2 * lost

/-- One digit more is shifted out, in front of the others. -/
theorem Lost.shift {place lost : Nat} {r sticky : Bool} (h : Lost place lost r sticky)
    (kept : Nat) (hlt : lost < place) :
    Lost (2 * place) (kept % 2 * place + lost) (kept % 2 != 0) (r || sticky) := by
  rcases Nat.mod_two_eq_zero_or_one kept with hbit | hbit
  · rw [hbit, Nat.zero_mul, Nat.zero_add]
    cases r <;> cases sticky <;> simp only [Lost] at h <;> simp [Lost] <;> omega
  · have hhalf : 2 * place ≤ 2 * (place + lost) := by omega
    rw [hbit, Nat.one_mul]
    cases r with
    | true => exact hhalf
    | false =>
      cases sticky with
      | true => exact hhalf
      | false =>
        have hnone : lost = 0 := h
        show 2 * (place + lost) = 2 * place
        omega

/-- A mantissa that is shifted keeps its first digits, and two bits on the others. -/
theorem exists_lost {em : ExtendedMantissa} {place lost : Nat}
    (bits : Lost place lost em.roundBit em.stickyBit) (hlt : lost < place) (n : Nat) :
    ∃ lost' < 2 ^ n * place,
      em.mantissa * place + lost = (em >>> n).mantissa * (2 ^ n * place) + lost' ∧
        Lost (2 ^ n * place) lost' (em >>> n).roundBit (em >>> n).stickyBit := by
  induction n with
  | zero =>
    rw [Nat.pow_zero, Nat.one_mul]
    exact ⟨lost, hlt, rfl, bits⟩
  | succ n ih =>
    obtain ⟨lost', hlt', hm, hbits⟩ := ih
    have hshift : em >>> (n + 1) = (em >>> n).shiftRightOne := rfl
    rw [hshift, hm]
    generalize em >>> n = em' at hbits ⊢
    obtain ⟨kept, r, sticky⟩ := em'
    have hplace : 2 ^ (n + 1) * place = 2 * (2 ^ n * place) := by ring
    rw [hplace]
    generalize 2 ^ n * place = unit at hlt' hbits ⊢
    refine ⟨kept % 2 * unit + lost', ?_, ?_, hbits.shift kept hlt'⟩
    · rcases Nat.mod_two_eq_zero_or_one kept with hbit | hbit <;> rw [hbit] <;> omega
    · calc kept * unit + lost' = (2 * (kept / 2) + kept % 2) * unit + lost' := by
            rw [Nat.div_add_mod]
        _ = kept / 2 * (2 * unit) + (kept % 2 * unit + lost') := by ring

/-- What is shifted out is dropped if it is half of its place at most, and it is made up for if it
is as much at least. -/
theorem Lost.rounded {place lost : Nat} {r sticky : Bool} (h : Lost place lost r sticky)
    (kept : Nat) (hlt : lost < place) :
    ∃ up, (⟨kept, r, sticky⟩ : ExtendedMantissa).roundedMantissa = kept + up ∧
      (up = 0 ∧ 2 * lost ≤ place ∨ up = 1 ∧ place ≤ 2 * lost) := by
  cases r with
  | false =>
    refine ⟨0, by cases sticky <;> rfl, .inl ⟨rfl, ?_⟩⟩
    cases sticky <;> dsimp only [Lost] at h <;> omega
  | true =>
    cases sticky with
    | true => exact ⟨1, rfl, .inr ⟨rfl, h⟩⟩
    | false =>
      have htie : 2 * lost = place := h
      refine ⟨kept % 2, rfl, ?_⟩
      omega

/-- The digits that are kept are rounded to the nearest. -/
theorem roundedMantissa_near {em : ExtendedMantissa} {place lost : Nat}
    (bits : Lost place lost em.roundBit em.stickyBit) (hlt : lost < place) (n : Nat) :
    |((em >>> n).roundedMantissa * (2 ^ n * place : Nat) : Int) -
        (em.mantissa * place + lost : Nat)|
      * 2 ≤ (2 ^ n * place : Nat) := by
  obtain ⟨lost', hlt', hm, hbits⟩ := exists_lost bits hlt n
  rw [hm]
  generalize em >>> n = em' at hbits ⊢
  generalize 2 ^ n * place = unit at hlt' hbits ⊢
  obtain ⟨kept, r, sticky⟩ := em'
  obtain ⟨up, hup, hnear⟩ := hbits.rounded kept hlt'
  have hdiff : ((kept + up : Nat) : Int) * unit - (kept * unit + lost' : Nat) =
      up * unit - lost' := by
    push_cast
    ring
  rw [hup, hdiff]
  rcases hnear with ⟨rfl, hhalf⟩ | ⟨rfl, hhalf⟩
  · rw [abs_of_nonpos (by omega)]
    omega
  · rw [abs_of_nonneg (by omega)]
    omega

/-! ## Rounding -/

theorem shifted_of_le (h : target m e ≤ e) : shifted .exact m e = (⟨m, false, false⟩, e) := by
  have hnone : (target m e - e).toNat = 0 := by omega
  unfold shifted
  rw [hnone]
  exact congrArg (Prod.mk _) (by omega)

theorem le_roundedMantissa (em : ExtendedMantissa) : em.mantissa ≤ em.roundedMantissa := by
  obtain ⟨m, r, s⟩ := em
  cases r <;> cases s <;> first | exact le_rfl | exact Nat.le_add_right ..

/-- Digits are kept as many as there is place for, unless there are no lower places. -/
theorem rounded_full (hm : 0 < m) (hle : e ≤ target m e) (a : Accuracy) :
    2 ^ 52 ≤ (shifted a m e).1.roundedMantissa ∨ target m e = -1074 := by
  by_cases hleast : target m e = -1074
  · exact .inr hleast
  · refine .inl (le_trans ?_ (le_roundedMantissa _))
    rw [mantissa_shifted, Nat.le_div_iff_mul_le (Nat.two_pow_pos _), ← Nat.pow_add]
    refine (Nat.le_log2 hm.ne').1 ?_
    unfold target at hle hleast ⊢
    omega

/-- What two bits say of the part of a unit that a mantissa lacks. -/
structure Accuracy.Tells (a : Accuracy) (place lost : Nat) : Prop where
  lt : lost < place
  bits (m : Nat) : Lost place lost (ExtendedMantissa.ofMantissaAndAccuracy m a).roundBit
    (ExtendedMantissa.ofMantissaAndAccuracy m a).stickyBit

theorem tells_exact : Accuracy.Tells .exact 1 0 := ⟨Nat.one_pos, fun _ => rfl⟩

/-- The value that is rounded is near to the one that is kept. -/
theorem cast_rounded_near {a : Accuracy} {place lost : Nat} (tells : Accuracy.Tells a place lost)
    (hle : e ≤ target m e) :
    |(((shifted a m e).1.roundedMantissa : ℚ) * 2 ^ target m e) - (m + lost / place) * 2 ^ e| ≤
      2 ^ (target m e - 1) := by
  have hnear := roundedMantissa_near (tells.bits m) tells.lt (target m e - e).toNat
  rw [mantissa_ofAccuracy] at hnear
  have hunit : (0 : ℚ) < place := Nat.cast_pos.2 (Nat.zero_lt_of_lt tells.lt)
  have hpos : (0 : ℚ) < 2 ^ e := zpow_pos two_pos _
  have hplace : (2 : ℚ) ^ target m e = 2 ^ (target m e - e).toNat * 2 ^ e := two_zpow_eq hle
  have hcast : |((shifted a m e).1.roundedMantissa : ℚ) * (2 ^ (target m e - e).toNat * place) -
      (m * place + lost)| * 2 ≤ 2 ^ (target m e - e).toNat * place := by exact_mod_cast hnear
  have hdiff : ((shifted a m e).1.roundedMantissa : ℚ) * 2 ^ target m e -
      (m + lost / place) * 2 ^ e = (((shifted a m e).1.roundedMantissa : ℚ) *
        (2 ^ (target m e - e).toNat * place) - (m * place + lost)) * (2 ^ e / place) := by
    rw [hplace]
    field_simp
  rw [hdiff, abs_mul, abs_of_pos (div_pos hpos hunit), zpow_sub_one₀ two_ne_zero, hplace]
  calc _ ≤ (2 : ℚ) ^ (target m e - e).toNat * place / 2 * (2 ^ e / place) :=
        mul_le_mul_of_nonneg_right (by linarith) (div_pos hpos hunit).le
    _ = 2 ^ (target m e - e).toNat * 2 ^ e * 2⁻¹ := by field_simp

/-- A value is brought to its exponent, and by half a unit of its last place at most. -/
theorem round_near {a : Accuracy} {place lost : Nat} (tells : Accuracy.Tells a place lost)
    (s : Sign) (hm : 0 < m) (hle : e ≤ target m e) :
    ∃ m' e', UnpackedFloat.roundWithAccuracy .binary64 s m e a = assembled s m' e' ∧
      (0 < m' → target m' e' = e') ∧ target m e ≤ e' ∧ e' ≤ target m e + 1 ∧
      |(m' * 2 ^ e' : ℚ) - (m + lost / place) * 2 ^ e| ≤ 2 ^ (target m e - 1) := by
  have hnear := cast_rounded_near tells hle
  have hfull := rounded_full hm hle a
  have hmost := rounded_le hle a
  have hleast : -1074 ≤ target m e := le_max_right _ _
  rw [round_eq, shifted_exponent hle]
  generalize (shifted a m e).1.roundedMantissa = r at hnear hfull hmost ⊢
  generalize target m e = t at hnear hfull hleast ⊢
  rcases hmost.lt_or_eq with hshort | rfl
  · have hlog : r.log2 ≤ 52 := by
      rcases Nat.eq_zero_or_pos r with rfl | hpos
      · decide
      · exact Nat.lt_succ_iff.1 ((Nat.log2_lt hpos.ne').2 hshort)
    have hfits : 0 < r → target r t = t := by
      intro hpos
      have hlong : 52 ≤ r.log2 ∨ t = -1074 := hfull.imp_left (Nat.le_log2 hpos.ne').2
      unfold target
      omega
    rw [shifted_of_le (by unfold target; omega)]
    exact ⟨r, t, rfl, hfits, le_rfl, by omega, hnear⟩
  · -- One digit too many has come in, and the last one is zero.
    have htarget : target (2 ^ 53) t = t + 1 := by
      unfold target
      rw [Nat.log2_two_pow]
      omega
    have hone : (target (2 ^ 53) t - t).toNat = 1 := by omega
    rw [shifted_of_dvd (by omega) (by rw [hone]; decide), hone, htarget]
    refine ⟨2 ^ 53 / 2 ^ 1, t + 1, rfl, ?_, by omega, le_rfl, ?_⟩
    · intro _
      unfold target
      rw [show (2 ^ 53 / 2 ^ 1 : Nat) = 2 ^ 52 by decide, Nat.log2_two_pow]
      omega
    · convert hnear using 3
      rw [zpow_add_one₀ two_ne_zero]
      norm_num
      ring

/-! ## Last places -/

/-- The exponent of the last place of a value: that of 53 digits, unless it is the least one. -/
structure HasPlace (v : ℚ) (t : Int) : Prop where
  least : -1074 ≤ t
  short : |v| < 2 ^ (t + 53)
  long : t = -1074 ∨ 2 ^ (t + 52) ≤ |v|

theorem HasPlace.neg {v : ℚ} {t : Int} (h : HasPlace v t) : HasPlace (-v) t where
  least := h.least
  short := (abs_neg v).symm ▸ h.short
  long := (abs_neg v).symm ▸ h.long

theorem hasPlace_zero : HasPlace 0 (-1074) where
  least := le_rfl
  short := by
    rw [abs_zero]
    exact zpow_pos two_pos _
  long := .inl rfl

theorem hasPlace_target (s : Sign) (hm : 0 < m) : HasPlace (valueOf s m e) (target m e) where
  least := le_max_right _ _
  short := by
    have hlog : (m : ℚ) < 2 ^ (m.log2 + 1) := by exact_mod_cast Nat.lt_log2_self
    calc |valueOf s m e| = m * 2 ^ e := abs_valueOf ..
      _ < 2 ^ (m.log2 + 1) * 2 ^ e := mul_lt_mul_of_pos_right hlog (zpow_pos two_pos e)
      _ = 2 ^ (((m.log2 + 1 : Nat) : Int) + e) := by rw [zpow_add₀ two_ne_zero, zpow_natCast]
      _ ≤ 2 ^ (target m e + 53) :=
        zpow_le_zpow_right₀ one_le_two (by unfold target; omega)
  long := by
    refine or_iff_not_imp_left.2 fun hleast => ?_
    have hlog : (2 ^ m.log2 : ℚ) ≤ m := by exact_mod_cast Nat.log2_self_le hm.ne'
    calc (2 : ℚ) ^ (target m e + 52) = 2 ^ ((m.log2 : Int) + e) := by
          congr 1
          unfold target at hleast ⊢
          omega
      _ = 2 ^ m.log2 * 2 ^ e := by rw [zpow_add₀ two_ne_zero, zpow_natCast]
      _ ≤ m * 2 ^ e := mul_le_mul_of_nonneg_right hlog (zpow_pos two_pos e).le
      _ = |valueOf s m e| := (abs_valueOf ..).symm

/-- What is less than `2^k` in size has its last place at `2^(k - 53)` or below. -/
theorem HasPlace.le {v : ℚ} {t : Int} (h : HasPlace v t) (hsmall : |v| < 2 ^ k) : t ≤ k - 53 := by
  rcases h.long with hleast | hlong
  · omega
  · have hlt : (2 : ℚ) ^ (t + 52) < 2 ^ (k : Int) := by
      rw [zpow_natCast]
      exact hlong.trans_lt hsmall
    have := (zpow_lt_zpow_iff_right₀ (one_lt_two : (1 : ℚ) < 2)).1 hlt
    omega

/-- A multiple of a unit is not jumped over by rounding to the nearest. -/
theorem le_of_near {t i j : Int} {v : ℚ} (hle : (i * 2 ^ t : ℚ) ≤ v)
    (near : |(j * 2 ^ t : ℚ) - v| ≤ 2 ^ (t - 1)) : i ≤ j := by
  have hplace : (0 : ℚ) < 2 ^ t := zpow_pos two_pos _
  by_contra hless
  have hunit : (j + 1 : ℚ) ≤ i := by exact_mod_cast Int.add_one_le_of_lt (not_le.1 hless)
  have hfar : (j * 2 ^ t : ℚ) + 2 ^ t ≤ v := by
    calc (j * 2 ^ t : ℚ) + 2 ^ t = (j + 1) * 2 ^ t := by ring
      _ ≤ i * 2 ^ t := mul_le_mul_of_nonneg_right hunit hplace.le
      _ ≤ v := hle
  have hhalf := (abs_le.1 near).1
  rw [zpow_sub_one₀ two_ne_zero] at hhalf
  linarith

theorem near_neg {t j : Int} {v : ℚ} (near : |(j * 2 ^ t : ℚ) - v| ≤ 2 ^ (t - 1)) :
    |((-j : Int) * 2 ^ t : ℚ) - -v| ≤ 2 ^ (t - 1) := by
  rw [← abs_neg]
  convert near using 2
  push_cast
  ring

theorem ge_of_near {t i j : Int} {v : ℚ} (hle : v ≤ (i * 2 ^ t : ℚ))
    (near : |(j * 2 ^ t : ℚ) - v| ≤ 2 ^ (t - 1)) : j ≤ i := by
  refine neg_le_neg_iff.1 (le_of_near ?_ (near_neg near))
  push_cast
  linarith

/-! ## Values that are rounded -/

/-- A double stands for a value that has digits for it: it has that value, unless that is out of
range. -/
def StandsFor (f : UnpackedFloat) (q : ℚ) : Prop :=
  match f with
  | .infinity .positive => 2 ^ (1024 : Int) ≤ q
  | .infinity .negative => q ≤ -2 ^ (1024 : Int)
  | f => value? f = some q ∧ |q| < 2 ^ (1024 : Int)

/-- A double is a value that is rounded to the nearest multiple of its last place. -/
def IsRounded (f : UnpackedFloat) (v : ℚ) : Prop :=
  ∃ t j : Int, HasPlace v t ∧ |(j * 2 ^ t : ℚ) - v| ≤ 2 ^ (t - 1) ∧ StandsFor f (j * 2 ^ t)

/-- What is packed is read again, or it is out of range. -/
theorem standsFor_pack (s : Sign) (hfits : 0 < m → target m e = e) :
    StandsFor (packed (assembled s m e)) (valueOf s m e) := by
  rcases Nat.eq_zero_or_pos m with rfl | hm
  · have hsize : |(0 : ℚ)| < 2 ^ (1024 : Int) := by
      rw [abs_zero]
      exact zpow_pos two_pos _
    have hzero : assembled s 0 e = .zero s := rfl
    rw [valueOf_zero, hzero, Canonical.unpack_pack (f := .zero s) trivial]
    exact ⟨value?_zero s, hsize⟩
  · have htarget := hfits hm
    obtain ⟨hshort, hlong⟩ := mantissa_range hm htarget
    rw [assembled_of_pos hm]
    by_cases hmost : e + 1076 < 2048
    · have hcanonical : Canonical (.finite s m e hm) := ⟨htarget, hmost⟩
      rw [hcanonical.unpack_pack]
      exact ⟨value?_finite s e hm, (hasPlace_target s hm).short.trans_le
        (zpow_le_zpow_right₀ one_le_two (by omega))⟩
    · -- The exponent is too great to be packed.
      have hsize : (2 : ℚ) ^ (1024 : Int) ≤ m * 2 ^ e := by
        have hdigits : (2 ^ 52 : ℚ) ≤ m := by exact_mod_cast hlong.resolve_right (by omega)
        calc (2 : ℚ) ^ (1024 : Int) = 2 ^ 52 * 2 ^ (972 : Int) := by
              rw [← zpow_natCast, ← zpow_add₀ two_ne_zero]
              rfl
          _ ≤ m * 2 ^ e := mul_le_mul hdigits
            (zpow_le_zpow_right₀ one_le_two (by omega)) (zpow_pos two_pos _).le (Nat.cast_nonneg m)
      have hinfinite : packed (.finite s m e hm) = .infinity s := by
        unfold packed
        rw [pack_finite, if_pos (by unfold biased; omega), unpack_packComponents]
        rfl
      rw [hinfinite]
      cases s with
      | positive => exact hsize
      | negative =>
        show valueOf .negative m e ≤ _
        rw [valueOf_negative]
        exact neg_le_neg hsize

theorem isRounded_packed {f : UnpackedFloat} {v : ℚ} (hf : Canonical f) (h : value? f = some v) :
    IsRounded (packed f) v := by
  cases f with
  | notANumber => cases h
  | infinity s => cases h
  | zero s =>
    obtain rfl := Option.some.inj ((value?_zero s).symm.trans h)
    refine ⟨-1074, 0, hasPlace_zero, by simp, ?_⟩
    rw [Int.cast_zero, zero_mul]
    exact valueOf_zero s 0 ▸ standsFor_pack s (m := 0) (e := 0) fun hm => absurd hm (by decide)
  | finite s m e hm =>
    obtain rfl := Option.some.inj ((value?_finite s e hm).symm.trans h)
    have hpack := standsFor_pack s fun _ : 0 < m => hf.1
    rw [assembled_of_pos hm] at hpack
    have hplace := hasPlace_target (e := e) s hm
    rw [hf.1] at hplace
    refine ⟨e, s.apply m, hplace, ?_, hpack⟩
    show |valueOf s m e - valueOf s m e| ≤ _
    rw [sub_self, abs_zero]
    exact (zpow_pos two_pos _).le

/-- A value is rounded to its last place and packed. -/
theorem isRounded_round (s : Sign) (hm : 0 < m) (hle : e ≤ target m e) :
    IsRounded (packed (UnpackedFloat.roundWithAccuracy .binary64 s m e .exact))
      (valueOf s m e) := by
  obtain ⟨m', e', hround, hfits, hexponent, -, hnear⟩ := round_near tells_exact s hm hle
  rw [Nat.cast_zero, zero_div, add_zero, ← abs_valueOf_sub s] at hnear
  rw [hround]
  have hpack := standsFor_pack s hfits
  rw [← valueOf_shiftLeft s m' hexponent] at hnear hpack
  exact ⟨target m e, s.apply (m' <<< (e' - target m e).toNat : Nat), hasPlace_target s hm, hnear,
    hpack⟩

/-- Before it is rounded, a mantissa is given as many digits as there is place for. -/
theorem isRounded_lengthened (s : Sign) (hm : 0 < m) :
    IsRounded (packed (UnpackedFloat.round .binary64 s m e)) (valueOf s m e) := by
  show IsRounded (packed (UnpackedFloat.roundWithAccuracy .binary64 s
    (m <<< (e - target m e).toNat) (e - ((e - target m e).toNat : Int)) .exact)) _
  obtain ⟨t, ht, hamount⟩ : ∃ t, e - ((e - target m e).toNat : Int) = t ∧
      (e - target m e).toNat = (e - t).toNat := ⟨_, rfl, by omega⟩
  have htarget : target (m <<< (e - t).toNat) t = target m e := by
    unfold target
    rw [Nat.shiftLeft_eq, log2_mul_two_pow hm]
    omega
  have hpos : 0 < m <<< (e - t).toNat := by
    rw [Nat.shiftLeft_eq]
    exact Nat.mul_pos hm (Nat.two_pow_pos _)
  rw [← valueOf_shiftLeft s m (show t ≤ e by omega), ht, hamount]
  exact isRounded_round s hpos (by omega)

/-- Signed digits are normalized by their size. -/
theorem isRounded_normalize (n : Int) (z : Sign) :
    IsRounded (packed (UnpackedFloat.normalize .binary64 n e z)) (n * 2 ^ e) := by
  unfold UnpackedFloat.normalize
  rcases lt_trichotomy n 0 with h | rfl | h
  · obtain ⟨m, rfl⟩ : ∃ m : Nat, n = -m := ⟨(-n).toNat, by omega⟩
    rw [compare_lt_iff_lt.2 h]
    show IsRounded (packed (UnpackedFloat.round .binary64 .negative (- -(m : Int)).toNat e))
      (valueOf .negative m e)
    rw [neg_neg, Int.toNat_natCast]
    exact isRounded_lengthened .negative (by omega)
  · rw [Int.cast_zero, zero_mul]
    exact isRounded_packed (f := .zero z) trivial (value?_zero z)
  · obtain ⟨m, rfl⟩ : ∃ m : Nat, n = m := ⟨n.toNat, by omega⟩
    rw [compare_gt_iff_gt.2 h]
    show IsRounded (packed (UnpackedFloat.round .binary64 .positive (m : Int).toNat e))
      (valueOf .positive m e)
    rw [Int.toNat_natCast]
    exact isRounded_lengthened .positive (by omega)

/-- What is less than `2^k` in size is rounded by `2^k / 2^54` at most. -/
theorem IsRounded.near {f : UnpackedFloat} {v : ℚ} (h : IsRounded f v) (hsmall : |v| < 2 ^ k)
    (hk : k ≤ 1000) : ∃ c, value? f = some c ∧ |c - v| ≤ 2 ^ k / 2 ^ 54 := by
  obtain ⟨t, j, hplace, hnear, hstands⟩ := h
  have ht := hplace.le hsmall
  have herror : |(j * 2 ^ t : ℚ) - v| ≤ 2 ^ k / 2 ^ 54 := by
    calc |(j * 2 ^ t : ℚ) - v| ≤ 2 ^ (t - 1) := hnear
      _ ≤ 2 ^ ((k : Int) - 54) := zpow_le_zpow_right₀ one_le_two (by omega)
      _ = 2 ^ k / 2 ^ 54 := by rw [zpow_sub₀ two_ne_zero, zpow_natCast]; rfl
  have hrange : |(j * 2 ^ t : ℚ)| < 2 ^ (1024 : Int) := by
    have hsum := abs_add_le ((j * 2 ^ t : ℚ) - v) v
    rw [sub_add_cancel] at hsum
    have hhalf : (2 : ℚ) ^ k / 2 ^ 54 ≤ 2 ^ k := div_le_self (by positivity) (by norm_num)
    calc |(j * 2 ^ t : ℚ)| < 2 ^ k * 2 := by linarith
      _ = 2 ^ ((k : Int) + 1) := by rw [zpow_add_one₀ two_ne_zero, zpow_natCast]
      _ ≤ 2 ^ (1024 : Int) := zpow_le_zpow_right₀ one_le_two (by omega)
  refine ⟨_, ?_, herror⟩
  cases f with
  | infinity s =>
    obtain ⟨hleast, hmost⟩ := abs_lt.1 hrange
    cases s with
    | positive => exact absurd hmost (not_lt.2 hstands)
    | negative => exact absurd hleast (not_lt.2 hstands)
  | _ => exact hstands.1

/-! ## Arithmetic -/

theorem zero_add_zero (s s' : Sign) : UnpackedFloat.add .binary64 (.zero s) (.zero s') =
    .zero (if s == s' then s else .positive) := (apply_ite UnpackedFloat.zero ..).symm

/-- A sum is the exact one, rounded. -/
theorem isRounded_add {f g : UnpackedFloat} {a b : ℚ} (hf : Canonical f) (hg : Canonical g)
    (ha : value? f = some a) (hb : value? g = some b) :
    IsRounded (packed (UnpackedFloat.add .binary64 f g)) (a + b) := by
  rcases f with s | _ | s | ⟨s, m, e, h⟩
  · cases ha
  · cases ha
  · obtain rfl := Option.some.inj ((value?_zero s).symm.trans ha)
    rw [zero_add]
    cases g with
    | notANumber => cases hb
    | infinity s' => cases hb
    | zero s' =>
      rw [zero_add_zero]
      exact isRounded_packed trivial ((value?_zero _).trans ((value?_zero s').symm.trans hb))
    | finite s' m' e' h' => exact isRounded_packed hg hb
  · cases g with
    | notANumber => cases hb
    | infinity s' => cases hb
    | zero s' =>
      obtain rfl := Option.some.inj ((value?_zero s').symm.trans hb)
      rw [add_zero]
      exact isRounded_packed hf ha
    | finite s' m' e' h' =>
      obtain rfl := Option.some.inj ((value?_finite s e h).symm.trans ha)
      obtain rfl := Option.some.inj ((value?_finite s' e' h').symm.trans hb)
      have hsum : valueOf s m e + valueOf s' m' e' =
          ((s.apply ((m <<< (e - min e e').toNat : Nat) : Int) +
            s'.apply ((m' <<< (e' - min e e').toNat : Nat) : Int) : Int) : ℚ) * 2 ^ min e e' := by
        rw [← valueOf_shiftLeft s m (min_le_left e e'),
          ← valueOf_shiftLeft s' m' (min_le_right e e'), Int.cast_add, add_mul]
        rfl
      rw [hsum]
      exact isRounded_normalize _ _

theorem sub_eq_add_neg (f g : UnpackedFloat) :
    UnpackedFloat.sub .binary64 f g = UnpackedFloat.add .binary64 f g.neg := by
  cases f with
  | finite s m e h =>
    cases g with
    | finite s' m' e' h' =>
      show UnpackedFloat.normalize .binary64 (s.apply _ - s'.apply _) _ _ =
        UnpackedFloat.normalize .binary64 (s.apply _ + (-s').apply _) _ _
      congr 1
      cases s' <;> simp [Sign.apply, Int.sub_eq_add_neg]
    | _ => rfl
  | _ => cases g <;> rfl

theorem valueOf_mul (s s' : Sign) (m m' : Nat) (e e' : Int) :
    valueOf s m e * valueOf s' m' e' = valueOf (s * s') (m * m') (e + e') := by
  have hsign : (s * s').apply ((m * m' : Nat) : Int) = s.apply m * s'.apply m' := by
    cases s <;> cases s' <;> simp [Sign.apply]
  unfold valueOf
  rw [hsign, zpow_add₀ two_ne_zero]
  push_cast
  ring

/-- The digits of a product are no fewer than there is place for. -/
theorem le_target_mul {m' : Nat} {e' : Int} (hm : 0 < m) (hm' : 0 < m') (h : target m e = e)
    (h' : target m' e' = e') : e + e' ≤ target (m * m') (e + e') := by
  have hproduct : m * m' ≠ 0 := (Nat.mul_pos hm hm').ne'
  have hfirst : m.log2 ≤ (m * m').log2 :=
    (Nat.le_log2 hproduct).2 ((Nat.log2_self_le hm.ne').trans (Nat.le_mul_of_pos_right m hm'))
  have hsecond : m'.log2 ≤ (m * m').log2 :=
    (Nat.le_log2 hproduct).2 ((Nat.log2_self_le hm'.ne').trans (Nat.le_mul_of_pos_left m' hm))
  unfold target at h h' ⊢
  omega

/-- A product is the exact one, rounded. -/
theorem isRounded_mul {f g : UnpackedFloat} {a b : ℚ} (hf : Canonical f) (hg : Canonical g)
    (ha : value? f = some a) (hb : value? g = some b) :
    IsRounded (packed (UnpackedFloat.mul .binary64 f g)) (a * b) := by
  rcases f with s | _ | s | ⟨s, m, e, h⟩
  · cases ha
  · cases ha
  · obtain rfl := Option.some.inj ((value?_zero s).symm.trans ha)
    rw [zero_mul]
    cases g with
    | infinity s' => cases hb
    | notANumber => cases hb
    | zero s' => exact isRounded_packed (f := .zero (s * s')) trivial (value?_zero _)
    | finite s' m' e' h' => exact isRounded_packed (f := .zero (s * s')) trivial (value?_zero _)
  · cases g with
    | infinity s' => cases hb
    | notANumber => cases hb
    | zero s' =>
      obtain rfl := Option.some.inj ((value?_zero s').symm.trans hb)
      rw [mul_zero]
      exact isRounded_packed (f := .zero (s * s')) trivial (value?_zero _)
    | finite s' m' e' h' =>
      obtain rfl := Option.some.inj ((value?_finite s e h).symm.trans ha)
      obtain rfl := Option.some.inj ((value?_finite s' e' h').symm.trans hb)
      rw [valueOf_mul]
      exact isRounded_round _ (Nat.mul_pos h h') (le_target_mul h h' hf.1 hg.1)

end Double

namespace Number

open Double

variable {x y : Float} {a b : ℚ} {k : Nat}

theorem isRounded_add (ha : (Number.float x).value? = some a)
    (hb : (Number.float y).value? = some b) : IsRounded (x + y).toModel.unpack (a + b) := by
  rw [value?_eq] at ha hb
  exact Double.isRounded_add (canonical_unpack _) (canonical_unpack _) ha hb

theorem unpack_sub (x y : Float) : (x - y).toModel.unpack =
    packed (UnpackedFloat.add .binary64 x.toModel.unpack y.toModel.unpack.neg) := by
  rw [← Double.sub_eq_add_neg]
  rfl

theorem isRounded_sub (ha : (Number.float x).value? = some a)
    (hb : (Number.float y).value? = some b) : IsRounded (x - y).toModel.unpack (a - b) := by
  rw [value?_eq] at ha hb
  rw [unpack_sub, Rat.sub_eq_add_neg]
  exact Double.isRounded_add (canonical_unpack _) (canonical_unpack _).neg ha (value?_neg hb)

/-- The sum of two doubles is the exact one, but for half a unit of its last place. -/
theorem near_add (ha : (Number.float x).value? = some a) (hb : (Number.float y).value? = some b)
    (hsmall : |a + b| < 2 ^ k) (hk : k ≤ 1000) :
    ∃ c, (Number.float (x + y)).value? = some c ∧ |c - (a + b)| ≤ 2 ^ k / 2 ^ 54 := by
  rw [value?_eq]
  exact (isRounded_add ha hb).near hsmall hk

theorem near_sub (ha : (Number.float x).value? = some a) (hb : (Number.float y).value? = some b)
    (hsmall : |a - b| < 2 ^ k) (hk : k ≤ 1000) :
    ∃ c, (Number.float (x - y)).value? = some c ∧ |c - (a - b)| ≤ 2 ^ k / 2 ^ 54 := by
  rw [value?_eq]
  exact (isRounded_sub ha hb).near hsmall hk

theorem near_mul (ha : (Number.float x).value? = some a) (hb : (Number.float y).value? = some b)
    (hsmall : |a * b| < 2 ^ k) (hk : k ≤ 1000) :
    ∃ c, (Number.float (x * y)).value? = some c ∧ |c - a * b| ≤ 2 ^ k / 2 ^ 54 := by
  rw [value?_eq] at ha hb ⊢
  exact (isRounded_mul (canonical_unpack _) (canonical_unpack _) ha hb).near hsmall hk

end Number

end ExpiringStore
