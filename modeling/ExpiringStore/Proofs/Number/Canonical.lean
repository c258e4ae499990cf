import ExpiringStore.Proofs.Number.Whole

/-!
# Doubles by their values

A double has digits and an exponent that are settled by its value: as many digits as there is place
for, or the least exponent.  So doubles of these parts can be packed and read again, and they are in
order if their values are.

    unpack (pack f)       =   f               for parts that a double has             (unpack_pack)
    a.compare? b          =   the order of the values of a and b                      (compare?_eq)
-/

namespace ExpiringStore

open Float.Model (UnpackedFloat)
open Float.Model.UnpackedFloat (Sign)

theorem Dyadic.value_eq (d : Dyadic) : d.value = d.signed * 2 ^ d.exponent := by
  unfold value numerator denominator
  push_cast [Nat.pow_eq]
  rcases Int.le_total 0 d.exponent with h | h
  · have hnone : (-d.exponent).toNat = 0 := by omega
    rw [hnone, pow_zero, div_one, ← zpow_natCast, Int.toNat_of_nonneg h]
  · have hnone : d.exponent.toNat = 0 := by omega
    rw [hnone, pow_zero, mul_one, ← zpow_natCast, Int.toNat_of_nonneg (by omega), zpow_neg,
      div_inv_eq_mul]

namespace Double

variable {s : Sign} {m : Nat} {e : Int}

/-! ## Doubles as they are kept -/

/-- An unpacked double whose digits and exponent are those that a double has. -/
def Canonical : UnpackedFloat → Prop
  | .finite _ m e _ => target m e = e ∧ e + 1076 < 2048
  | _ => True

/-- What is read of a double that is packed. -/
abbrev packed (f : UnpackedFloat) : UnpackedFloat :=
  UnpackedFloat.unpack .binary64 (UnpackedFloat.pack .binary64 f)

/-- A double that can be packed is read as it was written. -/
theorem Canonical.unpack_pack {f : UnpackedFloat} (h : Canonical f) : packed f = f := by
  cases f with
  | notANumber => rfl
  | infinity s => cases s <;> rfl
  | zero s => cases s <;> rfl
  | finite s m e hm =>
    obtain ⟨htarget, hmost⟩ := h
    by_cases hlog : m.log2 = 52
    · exact Double.unpack_pack hlog (by unfold target at htarget; omega) hmost
    · obtain ⟨rfl, hlt⟩ : e = -1074 ∧ m.log2 < 52 := by
        unfold target at htarget
        omega
      have hsmall : m < 2 ^ 52 := (Nat.log2_lt hm.ne').1 hlt
      have hbits : (BitVec.ofNat 52 m).toNat = m := by
        rw [BitVec.toNat_ofNat, Nat.mod_eq_of_lt hsmall]
      have hne : BitVec.ofNat 52 m ≠ 0#52 := fun hzero =>
        hm.ne' (hbits.symm.trans (congrArg BitVec.toNat hzero))
      unfold packed
      rw [pack_finite, if_neg (by decide), if_neg (by omega), unpack_packComponents]
      unfold ofParts
      rw [if_neg (by decide), if_pos rfl, dif_neg hne, UnpackedFloat.finite.injEq]
      exact ⟨rfl, hbits, rfl⟩

/-- What is unpacked can be packed. -/
theorem canonical_unpack (b : BitVec 64) : Canonical (UnpackedFloat.unpack .binary64 b) := by
  cases h : UnpackedFloat.unpack .binary64 b with
  | finite s m e hm =>
    refine ⟨?_, exponent_unpack h⟩
    rw [unpack_eq] at h
    unfold ofParts at h
    split at h
    · split at h <;> cases h
    · split at h
      · next hzero =>
        split at h
        · cases h
        · obtain ⟨-, rfl, rfl⟩ := UnpackedFloat.finite.inj h
          have hlt : (mantissaBits b).toNat.log2 < 52 :=
            (Nat.log2_lt hm.ne').2 (mantissaBits b).isLt
          rw [hzero]
          unfold target
          simp
          omega
      · next hzero =>
        obtain ⟨-, rfl, rfl⟩ := UnpackedFloat.finite.inj h
        have hlog : (1#1 ++ mantissaBits b).toNat.log2 = 52 := by
          rw [toNat_hidden]
          have hlt := (mantissaBits b).isLt
          exact (Nat.log2_eq_iff (by omega)).2 ⟨by omega, by omega⟩
        have hpos : (exponentBits b).toNat ≠ 0 := fun h₀ => hzero (BitVec.eq_of_toNat_eq h₀)
        unfold target
        rw [hlog]
        omega
  | _ => trivial

theorem Canonical.neg {f : UnpackedFloat} (h : Canonical f) : Canonical f.neg := by
  cases f <;> exact h

/-! ## Values -/

def valueOf (s : Sign) (m : Nat) (e : Int) : ℚ := ((s.apply m : Int) : ℚ) * 2 ^ e

theorem valueOf_zero (s : Sign) (e : Int) : valueOf s 0 e = 0 := by
  cases s <;> simp [valueOf, Sign.apply]

theorem valueOf_neg (s : Sign) (m : Nat) (e : Int) : valueOf (-s) m e = -valueOf s m e := by
  cases s <;> simp [valueOf, Sign.apply]

/-- Values of one sign are as far apart as their sizes. -/
theorem abs_valueOf_sub (s : Sign) (m m' : Nat) (e e' : Int) :
    |valueOf s m' e' - valueOf s m e| = |(m' * 2 ^ e' : ℚ) - m * 2 ^ e| := by
  cases s with
  | positive => rfl
  | negative =>
    rw [← abs_neg]
    simp [valueOf, Sign.apply, add_comm, sub_eq_add_neg]

theorem abs_valueOf (s : Sign) (m : Nat) (e : Int) : |valueOf s m e| = m * 2 ^ e := by
  have hplace : (0 : ℚ) < 2 ^ e := zpow_pos two_pos e
  unfold valueOf
  rw [abs_mul, abs_of_pos hplace]
  cases s <;> simp [Sign.apply]

theorem valueOf_negative (m : Nat) (e : Int) : valueOf .negative m e = -(m * 2 ^ e) := by
  simp [valueOf, Sign.apply]

theorem valueOf_positive_pos (hm : 0 < m) : 0 < valueOf .positive m e :=
  mul_pos (Int.cast_pos.2 (Int.natCast_pos.2 hm)) (zpow_pos two_pos e)

theorem valueOf_negative_neg (hm : 0 < m) : valueOf .negative m e < 0 := by
  rw [valueOf_negative]
  exact neg_lt_zero.2 (valueOf_positive_pos hm)

/-- A power of two is a multiple of every lesser one. -/
theorem two_zpow_eq {t : Int} (h : t ≤ e) : (2 : ℚ) ^ e = 2 ^ (e - t).toNat * 2 ^ t := by
  rw [← zpow_natCast, ← zpow_add₀ two_ne_zero]
  congr 1
  omega

/-- Digits that are appended make up for the exponent. -/
theorem valueOf_shiftLeft (s : Sign) (m : Nat) {t : Int} (h : t ≤ e) :
    valueOf s (m <<< (e - t).toNat) t = valueOf s m e := by
  unfold valueOf
  rw [Nat.shiftLeft_eq, two_zpow_eq h, ← mul_assoc]
  cases s <;> simp [Sign.apply]

def value? (f : UnpackedFloat) : Option ℚ := (Binary64.ofUnpacked f).value?

theorem value?_zero (s : Sign) : value? (.zero s) = some 0 :=
  congrArg some (Dyadic.value_zero _ _)

theorem value?_finite (s : Sign) (e : Int) (hm : 0 < m) :
    value? (.finite s m e hm) = some (valueOf s m e) := by
  refine congrArg some ((Dyadic.value_eq _).trans ?_)
  cases s <;> rfl

theorem value?_assembled (s : Sign) (m : Nat) (e : Int) :
    value? (assembled s m e) = some (valueOf s m e) := by
  rcases Nat.eq_zero_or_pos m with rfl | hm
  · rw [valueOf_zero]
    exact value?_zero s
  · rw [assembled_of_pos hm, value?_finite]

theorem value?_neg {f : UnpackedFloat} {v : ℚ} (h : value? f = some v) :
    value? f.neg = some (-v) := by
  cases f with
  | notANumber => cases h
  | infinity s => cases h
  | zero s =>
    obtain rfl := Option.some.inj ((value?_zero s).symm.trans h)
    rw [neg_zero]
    exact value?_zero _
  | finite s m e hm =>
    obtain rfl := Option.some.inj ((value?_finite s e hm).symm.trans h)
    rw [← valueOf_neg]
    exact value?_finite _ _ hm

/-! ## Order -/

/-- A mantissa is below `2^53`, and one that could be longer is at least `2^52`. -/
theorem mantissa_range (hm : 0 < m) (h : target m e = e) :
    m < 2 ^ 53 ∧ (2 ^ 52 ≤ m ∨ e = -1074) := by
  have hlong : 52 ≤ m.log2 ∨ e = -1074 := by
    unfold target at h
    omega
  refine ⟨(Nat.log2_lt hm.ne').1 ?_, hlong.imp_left (Nat.le_log2 hm.ne').1⟩
  unfold target at h
  omega

/-- Of two positive doubles the one of the greater exponent is greater. -/
theorem lt_of_exponent {m' : Nat} {e' : Int} (hm : 0 < m) (hm' : 0 < m') (h : target m e = e)
    (h' : target m' e' = e') (hlt : e < e') : (m * 2 ^ e : ℚ) < m' * 2 ^ e' := by
  have hleast : -1074 ≤ e := h.symm.trans_ge (le_max_right _ _)
  have hshort : (m : ℚ) < 2 ^ 53 := by exact_mod_cast (mantissa_range hm h).1
  have hlong : (2 ^ 52 : ℚ) ≤ m' := by
    exact_mod_cast (mantissa_range hm' h').2.resolve_right (by omega)
  have hplace : (0 : ℚ) < 2 ^ e := zpow_pos two_pos e
  have hdouble : (2 : ℚ) ^ e * 2 ≤ 2 ^ e' := by
    rw [← zpow_add_one₀ two_ne_zero]
    exact zpow_le_zpow_right₀ one_le_two (by omega)
  calc (m * 2 ^ e : ℚ) < 2 ^ 53 * 2 ^ e := mul_lt_mul_of_pos_right hshort hplace
    _ = 2 ^ 52 * (2 ^ e * 2) := by ring
    _ ≤ 2 ^ 52 * 2 ^ e' := mul_le_mul_of_nonneg_left hdouble (by positivity)
    _ ≤ m' * 2 ^ e' := mul_le_mul_of_nonneg_right hlong (zpow_pos two_pos e').le

/-- Exponents and then mantissas are compared, and that compares the values. -/
theorem compare_parts {m' : Nat} {e' : Int} (hm : 0 < m) (hm' : 0 < m') (h : target m e = e)
    (h' : target m' e' = e') :
    (compare e e').then (compare m m') = compare (m * 2 ^ e : ℚ) (m' * 2 ^ e') := by
  rcases lt_trichotomy e e' with hlt | rfl | hgt
  · rw [compare_lt_iff_lt.2 hlt, compare_lt_iff_lt.2 (lt_of_exponent hm hm' h h' hlt)]
    rfl
  · have hplace : (0 : ℚ) < 2 ^ e := zpow_pos two_pos e
    rw [compare_eq_iff_eq.2 rfl]
    show compare m m' = _
    rcases lt_trichotomy m m' with hlt | rfl | hgt
    · rw [compare_lt_iff_lt.2 hlt, compare_lt_iff_lt.2]
      exact mul_lt_mul_of_pos_right (Nat.cast_lt.2 hlt) hplace
    · rw [compare_eq_iff_eq.2 rfl, compare_eq_iff_eq.2 rfl]
    · rw [compare_gt_iff_gt.2 hgt, compare_gt_iff_gt.2]
      exact mul_lt_mul_of_pos_right (Nat.cast_lt.2 hgt) hplace
  · rw [compare_gt_iff_gt.2 hgt, compare_gt_iff_gt.2 (lt_of_exponent hm' hm h' h hgt)]
    rfl

/-- Comparing doubles compares their values. -/
theorem compare_eq {f g : UnpackedFloat} {a b : ℚ} (hf : Canonical f) (hg : Canonical g)
    (ha : value? f = some a) (hb : value? g = some b) : f.compare g = some (compare a b) := by
  have hless {x y : ℚ} (h : x < y) : some Ordering.lt = some (compare x y) :=
    congrArg some (compare_lt_iff_lt.2 h).symm
  have hgreater {x y : ℚ} (h : y < x) : some Ordering.gt = some (compare x y) :=
    congrArg some (compare_gt_iff_gt.2 h).symm
  rcases f with s | _ | s | ⟨s, m, e, h⟩
  · cases ha
  · cases ha
  · obtain rfl := Option.some.inj ((value?_zero s).symm.trans ha)
    rcases g with s' | _ | s' | ⟨s', m', e', h'⟩
    · cases hb
    · cases hb
    · obtain rfl := Option.some.inj ((value?_zero s').symm.trans hb)
      exact congrArg some (compare_eq_iff_eq.2 rfl).symm
    · obtain rfl := Option.some.inj ((value?_finite s' e' h').symm.trans hb)
      cases s' with
      | negative => exact hgreater (valueOf_negative_neg h')
      | positive => exact hless (valueOf_positive_pos h')
  · obtain rfl := Option.some.inj ((value?_finite s e h).symm.trans ha)
    rcases g with s' | _ | s' | ⟨s', m', e', h'⟩
    · cases hb
    · cases hb
    · obtain rfl := Option.some.inj ((value?_zero s').symm.trans hb)
      cases s with
      | negative => exact hless (valueOf_negative_neg h)
      | positive => exact hgreater (valueOf_positive_pos h)
    · obtain rfl := Option.some.inj ((value?_finite s' e' h').symm.trans hb)
      have hsizes := compare_parts h h' hf.1 hg.1
      cases s with
      | negative =>
        cases s' with
        | negative =>
          show some ((compare e e').then (compare m m')).swap = _
          rw [hsizes, valueOf_negative, valueOf_negative, ← Std.OrientedCmp.eq_swap]
          congr 1
          rcases lt_trichotomy (m * 2 ^ e : ℚ) (m' * 2 ^ e') with hlt | heq | hgt
          · rw [compare_gt_iff_gt.2 hlt, compare_gt_iff_gt.2 (neg_lt_neg hlt)]
          · rw [heq, compare_eq_iff_eq.2 rfl, compare_eq_iff_eq.2 rfl]
          · rw [compare_lt_iff_lt.2 hgt, compare_lt_iff_lt.2 (neg_lt_neg hgt)]
        | positive => exact hless ((valueOf_negative_neg h).trans (valueOf_positive_pos h'))
      | positive =>
        cases s' with
        | negative => exact hgreater ((valueOf_negative_neg h').trans (valueOf_positive_pos h))
        | positive => exact congrArg some hsizes

end Double

namespace Number

theorem value?_eq (x : Float) : (Number.float x).value? = Double.value? x.toModel.unpack :=
  congrArg Binary64.value? (Binary64.decode_eq x)

theorem isNaN_of_value? {x : Float} {q : ℚ} (h : (Number.float x).value? = some q) :
    x.isNaN = false := by
  rw [value?_eq] at h
  show x.toModel.unpack.isNaN = false
  cases hx : x.toModel.unpack with
  | notANumber =>
    rw [hx] at h
    cases h
  | _ => rfl

theorem order_eq {x : Float} {q : ℚ} (h : (Number.float x).value? = some q) (n : Int) :
    (Binary64.decode x).order n = some (compare q (n : ℚ)) := by
  obtain ⟨d, decodes, rfl⟩ := finite_of_value? h
  rw [decodes]
  rfl

/-- Numbers that have values are in order as these are. -/
theorem compare?_eq {a b : Number} {p q : ℚ} (ha : a.value? = some p) (hb : b.value? = some q) :
    a.compare? b = some (compare p q) := by
  cases a with
  | int m =>
    obtain rfl := Option.some.inj ha
    cases b with
    | int n =>
      obtain rfl := Option.some.inj hb
      refine congrArg some ?_
      rcases lt_trichotomy m n with h | rfl | h
      · rw [compare_lt_iff_lt.2 h, compare_lt_iff_lt.2 (Int.cast_lt.2 h)]
      · rw [compare_eq_iff_eq.2 rfl, compare_eq_iff_eq.2 rfl]
      · rw [compare_gt_iff_gt.2 h, compare_gt_iff_gt.2 (Int.cast_lt.2 h)]
    | float y =>
      rw [compare?_int_float, order_eq hb]
      exact congrArg some Std.OrientedCmp.eq_swap.symm
  | float x =>
    cases b with
    | int n =>
      obtain rfl := Option.some.inj hb
      rw [compare?_float_int, order_eq ha]
    | float y =>
      rw [compare?_float_float]
      rw [value?_eq] at ha hb
      exact Double.compare_eq (Double.canonical_unpack _) (Double.canonical_unpack _) ha hb

/-- One number is less than another if its value is. -/
theorem lt_eq {a b : Number} {p q : ℚ} (ha : a.value? = some p) (hb : b.value? = some q) :
    a.lt b = decide (p < q) := by
  unfold lt
  rw [compare?_eq ha hb]
  by_cases h : p < q
  · rw [compare_lt_iff_lt.2 h, decide_eq_true h]
    rfl
  · rw [decide_eq_false h]
    exact beq_false_of_ne fun heq => h (compare_lt_iff_lt.1 (Option.some.inj heq))

end Number

end ExpiringStore
