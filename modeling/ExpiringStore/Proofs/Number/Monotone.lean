import ExpiringStore.Proofs.Number.Line
import ExpiringStore.Proofs.Number.Rounded

/-!
# Rounded sums in order

Rounding keeps values in order.  Values of one last place are rounded to multiples of one unit, and
where the last places differ, a power of two lies between the values, which neither of them is
rounded beyond.  So doubles to which the same double is added stay in order, and the difference of
two is not negative if the first is no less than the second.

    u < v       →   u rounded ≤ v rounded                                        (multiples_le)
    x ≤ y       →   x + z ≤ y + z     where both sums are defined                (place_add_le)
    y ≤ x       →   0 ≤ x - y         where the difference is defined            (place_sub_nonneg)
-/

namespace ExpiringStore

open Float.Model (UnpackedFloat)
open Float.Model.UnpackedFloat (Sign)

namespace Double

/-! ## Rounding in order -/

section
variable {u v : ℚ} {t t' j j' : Int}

/-- Between values with last places apart there lies a power of two. -/
theorem HasPlace.between (hu : HasPlace u t) (hv : HasPlace v t') (ht : t < t') (hlt : u < v) :
    u ≤ 2 ^ (t' + 52) ∧ 2 ^ (t' + 52) ≤ v := by
  have hle : (2 : ℚ) ^ (t + 53) ≤ 2 ^ (t' + 52) := zpow_le_zpow_right₀ one_le_two (by omega)
  have hlong : (2 : ℚ) ^ (t' + 52) ≤ |v| := hv.long.resolve_left (by have := hu.least; omega)
  obtain ⟨hleast, hmost⟩ := abs_lt.1 (hu.short.trans_le hle)
  refine ⟨hmost.le, ?_⟩
  rcases le_abs'.1 hlong with hneg | hpos
  · exact absurd (hneg.trans_lt hleast) (not_lt.2 hlt.le)
  · exact hpos

/-- What is rounded to a last place is not rounded beyond that power. -/
theorem multiples_le_of_place_lt (hu : HasPlace u t) (hv : HasPlace v t') (ht : t < t')
    (hlt : u < v) (near : |(j * 2 ^ t : ℚ) - u| ≤ 2 ^ (t - 1))
    (near' : |(j' * 2 ^ t' : ℚ) - v| ≤ 2 ^ (t' - 1)) :
    (j * 2 ^ t : ℚ) ≤ j' * 2 ^ t' := by
  obtain ⟨hbelow, habove⟩ := hu.between hv ht hlt
  have hunits : ((2 ^ (t' + 52 - t).toNat : Int) : ℚ) * 2 ^ t = 2 ^ (t' + 52) := by
    push_cast
    exact (two_zpow_eq (by omega)).symm
  have hunits' : ((2 ^ 52 : Int) : ℚ) * 2 ^ t' = 2 ^ (t' + 52) := by
    rw [add_comm, zpow_add₀ two_ne_zero]
    norm_num
  have hj : j ≤ 2 ^ (t' + 52 - t).toNat := ge_of_near (hunits.symm ▸ hbelow) near
  have hj' : 2 ^ 52 ≤ j' := le_of_near (hunits'.symm ▸ habove) near'
  calc (j * 2 ^ t : ℚ) ≤ ((2 ^ (t' + 52 - t).toNat : Int) : ℚ) * 2 ^ t :=
        mul_le_mul_of_nonneg_right (Int.cast_le.2 hj) (zpow_pos two_pos t).le
    _ = ((2 ^ 52 : Int) : ℚ) * 2 ^ t' := hunits.trans hunits'.symm
    _ ≤ j' * 2 ^ t' := mul_le_mul_of_nonneg_right (Int.cast_le.2 hj') (zpow_pos two_pos t').le

/-- Rounding to the nearest keeps values in order. -/
theorem multiples_le (hu : HasPlace u t) (hv : HasPlace v t') (hlt : u < v)
    (near : |(j * 2 ^ t : ℚ) - u| ≤ 2 ^ (t - 1)) (near' : |(j' * 2 ^ t' : ℚ) - v| ≤ 2 ^ (t' - 1)) :
    (j * 2 ^ t : ℚ) ≤ j' * 2 ^ t' := by
  rcases lt_trichotomy t t' with ht | rfl | ht
  · exact multiples_le_of_place_lt hu hv ht hlt near near'
  · -- Of one last place, they are multiples of one unit, and less than two halves of it apart.
    have hplace : (0 : ℚ) < 2 ^ t := zpow_pos two_pos t
    have hbelow := (abs_le.1 near).2
    have habove := (abs_le.1 near').1
    rw [zpow_sub_one₀ two_ne_zero] at hbelow habove
    have hunit : (j * 2 ^ t : ℚ) < (j' + 1) * 2 ^ t := by linarith
    have hj : j < j' + 1 := by exact_mod_cast lt_of_mul_lt_mul_right hunit hplace.le
    exact mul_le_mul_of_nonneg_right (Int.cast_le.2 (Int.lt_add_one_iff.1 hj)) hplace.le
  · have hneg := multiples_le_of_place_lt hv.neg hu.neg ht (neg_lt_neg hlt) (near_neg near')
      (near_neg near)
    push_cast at hneg
    linarith

end

/-! ## Places -/

/-- Where an unpacked double lies. -/
noncomputable def place (f : UnpackedFloat) : EReal := (Binary64.ofUnpacked f).place

variable {f g h : UnpackedFloat} {a b c p q : ℚ}

theorem place_of_value? (hf : value? f = some q) : place f = ((q : ℝ) : EReal) :=
  Binary64.place_of_value? hf

theorem bot_lt_place (hf : value? f = some q) : ⊥ < place f := by
  rw [place_of_value? hf]
  exact EReal.bot_lt_coe _

theorem place_lt_top (hf : value? f = some q) : place f < ⊤ := by
  rw [place_of_value? hf]
  exact EReal.coe_lt_top _

theorem StandsFor.cases (hf : StandsFor f q) :
    (f = .infinity .positive ∧ 2 ^ (1024 : Int) ≤ q) ∨
      (f = .infinity .negative ∧ q ≤ -2 ^ (1024 : Int)) ∨
      (value? f = some q ∧ |q| < 2 ^ (1024 : Int)) := by
  cases f with
  | infinity s =>
    cases s with
    | positive => exact .inl ⟨rfl, hf⟩
    | negative => exact .inr (.inl ⟨rfl, hf⟩)
  | _ => exact .inr (.inr hf)

/-- Doubles lie as the values that they stand for. -/
theorem StandsFor.place_le (hf : StandsFor f p) (hg : StandsFor g q) (hle : p ≤ q) :
    place f ≤ place g := by
  rcases hf.cases with ⟨rfl, hp⟩ | ⟨rfl, -⟩ | ⟨hp, hsize⟩
  · rcases hg.cases with ⟨rfl, -⟩ | ⟨rfl, hq⟩ | ⟨-, hsize⟩
    · exact le_rfl
    · have hpos : (0 : ℚ) < 2 ^ (1024 : Int) := zpow_pos two_pos _
      exact absurd (hp.trans (hle.trans hq)) (not_le.2 (neg_lt_self hpos))
    · exact absurd (hp.trans hle) (not_le.2 (abs_lt.1 hsize).2)
  · exact bot_le
  · rcases hg.cases with ⟨rfl, -⟩ | ⟨rfl, hq⟩ | ⟨hq, -⟩
    · exact le_top
    · exact absurd (hle.trans hq) (not_le.2 (abs_lt.1 hsize).1)
    · rw [place_of_value? hp, place_of_value? hq, EReal.coe_le_coe_iff, Rat.cast_le]
      exact hle

theorem IsRounded.place_le {u v : ℚ} (hf : IsRounded f u) (hg : IsRounded g v) (hlt : u < v) :
    place f ≤ place g := by
  obtain ⟨t, j, hu, near, hstands⟩ := hf
  obtain ⟨t', j', hv, near', hstands'⟩ := hg
  exact hstands.place_le hstands' (multiples_le hu hv hlt near near')

/-- What is not negative is not rounded below zero. -/
theorem IsRounded.place_nonneg {v : ℚ} (hf : IsRounded f v) (hv : 0 ≤ v) : 0 ≤ place f := by
  obtain ⟨t, j, -, near, hstands⟩ := hf
  have hj : 0 ≤ j := le_of_near (by rwa [Int.cast_zero, zero_mul]) near
  have hzero : StandsFor (.zero .positive) 0 := by
    refine ⟨value?_zero _, ?_⟩
    rw [abs_zero]
    exact zpow_pos two_pos _
  have hle := hzero.place_le hstands (mul_nonneg (Int.cast_nonneg hj) (zpow_pos two_pos t).le)
  rwa [place_of_value? (value?_zero _), Rat.cast_zero, EReal.coe_zero] at hle

/-! ## Sums -/

theorem value?_or_infinity (hf : f.isNaN = false) :
    (∃ a, value? f = some a) ∨ ∃ s, f = .infinity s := by
  cases f with
  | notANumber => cases hf
  | infinity s => exact .inr ⟨s, rfl⟩
  | zero s => exact .inl ⟨0, value?_zero s⟩
  | finite s m e hm => exact .inl ⟨_, value?_finite s e hm⟩

theorem isNaN_of_packed (hf : (packed f).isNaN = false) : f.isNaN = false := by
  cases f with
  | notANumber => cases hf
  | _ => rfl

theorem isNaN_of_add (hsum : (UnpackedFloat.add .binary64 f h).isNaN = false) :
    f.isNaN = false ∧ h.isNaN = false := by
  cases f <;> cases h <;> first | exact ⟨rfl, rfl⟩ | cases hsum

theorem infinity_add {s : Sign}
    (hsum : (UnpackedFloat.add .binary64 (.infinity s) h).isNaN = false) :
    UnpackedFloat.add .binary64 (.infinity s) h = .infinity s := by
  cases h with
  | notANumber => cases hsum
  | infinity s' => cases s <;> cases s' <;> first | rfl | cases hsum
  | _ => rfl

theorem add_infinity {s : Sign}
    (hsum : (UnpackedFloat.add .binary64 f (.infinity s)).isNaN = false) :
    UnpackedFloat.add .binary64 f (.infinity s) = .infinity s := by
  cases f with
  | notANumber => cases hsum
  | infinity s' => cases s <;> cases s' <;> first | rfl | cases hsum
  | _ => rfl

theorem packed_infinity (s : Sign) : packed (.infinity s) = .infinity s :=
  Canonical.unpack_pack (f := .infinity s) trivial

/-- Doubles of one value that is not zero are the same. -/
theorem eq_of_value? (hf : Canonical f) (hg : Canonical g) (ha : value? f = some a)
    (hb : value? g = some a) (hne : a ≠ 0) : f = g := by
  rcases f with s | _ | s | ⟨s, m, e, hm⟩
  · cases ha
  · cases ha
  · exact absurd (Option.some.inj ((value?_zero s).symm.trans ha)).symm hne
  · rcases g with s' | _ | s' | ⟨s', m', e', hm'⟩
    · cases hb
    · cases hb
    · exact absurd (Option.some.inj ((value?_zero s').symm.trans hb)).symm hne
    · obtain rfl := Option.some.inj ((value?_finite s e hm).symm.trans ha)
      have hvalue := Option.some.inj ((value?_finite s' e' hm').symm.trans hb)
      have hsize : (m * 2 ^ e : ℚ) = m' * 2 ^ e' := by
        rw [← abs_valueOf s, ← abs_valueOf s', hvalue]
      have hparts := compare_parts hm hm' hf.1 hg.1
      rw [hsize, compare_eq_iff_eq.2 rfl, Ordering.then_eq_eq, compare_eq_iff_eq,
        compare_eq_iff_eq] at hparts
      obtain ⟨rfl, rfl⟩ := hparts
      have hsign : s = s' := by
        have hneg := valueOf_negative_neg (e := e) hm
        have hpos := valueOf_positive_pos (e := e) hm
        cases s <;> cases s' <;> first | rfl | linarith
      rw [hsign]

theorem value?_zero_add (s : Sign) (hh : Canonical h) (hc : value? h = some c) :
    value? (packed (UnpackedFloat.add .binary64 (.zero s) h)) = some c := by
  cases h with
  | notANumber => cases hc
  | infinity s' => cases hc
  | zero s' =>
    rw [zero_add_zero, Canonical.unpack_pack (f := .zero _) trivial, value?_zero, ← hc, value?_zero]
  | finite s' m e hm =>
    rw [show UnpackedFloat.add .binary64 (.zero s) (.finite s' m e hm) = .finite s' m e hm from rfl,
      hh.unpack_pack, hc]

/-- Doubles of values in order stay in order when a double with a value is added. -/
theorem place_add_le_of_values (hf : Canonical f) (hg : Canonical g) (hh : Canonical h)
    (ha : value? f = some a) (hb : value? g = some b) (hc : value? h = some c) (hle : a ≤ b) :
    place (packed (UnpackedFloat.add .binary64 f h)) ≤
      place (packed (UnpackedFloat.add .binary64 g h)) := by
  rcases hle.lt_or_eq with hlt | rfl
  · exact (isRounded_add hf hh ha hc).place_le (isRounded_add hg hh hb hc) (by linarith)
  · by_cases hzero : a = 0
    · subst hzero
      have hsum {k : UnpackedFloat} (hk : value? k = some 0) :
          place (packed (UnpackedFloat.add .binary64 k h)) = ((c : ℝ) : EReal) := by
        cases k with
        | notANumber => cases hk
        | infinity s => cases hk
        | zero s => exact place_of_value? (value?_zero_add s hh hc)
        | finite s m e hm =>
          have hvalue := Option.some.inj ((value?_finite s e hm).symm.trans hk)
          have hneg := valueOf_negative_neg (e := e) hm
          have hpos := valueOf_positive_pos (e := e) hm
          cases s <;> linarith
      rw [hsum ha, hsum hb]
    · rw [eq_of_value? hf hg ha hb hzero]

/-- Doubles in order stay in order when the same double is added, if both sums are defined. -/
theorem place_add_le (hf : Canonical f) (hg : Canonical g) (hh : Canonical h)
    (hsum : (UnpackedFloat.add .binary64 f h).isNaN = false)
    (hsum' : (UnpackedFloat.add .binary64 g h).isNaN = false) (hle : place f ≤ place g) :
    place (packed (UnpackedFloat.add .binary64 f h)) ≤
      place (packed (UnpackedFloat.add .binary64 g h)) := by
  rcases value?_or_infinity (isNaN_of_add hsum).2 with ⟨c, hc⟩ | ⟨s, rfl⟩
  · rcases value?_or_infinity (isNaN_of_add hsum).1 with ⟨a, ha⟩ | ⟨s, rfl⟩
    · rcases value?_or_infinity (isNaN_of_add hsum').1 with ⟨b, hb⟩ | ⟨s, rfl⟩
      · rw [place_of_value? ha, place_of_value? hb, EReal.coe_le_coe_iff, Rat.cast_le] at hle
        exact place_add_le_of_values hf hg hh ha hb hc hle
      · rw [infinity_add hsum', packed_infinity]
        cases s with
        | positive => exact le_top
        | negative => exact absurd (bot_lt_place ha) (not_lt.2 hle)
    · rw [infinity_add hsum, packed_infinity]
      cases s with
      | negative => exact bot_le
      | positive =>
        -- What does not lie before the end lies at the end, and a sum with it too.
        rcases value?_or_infinity (isNaN_of_add hsum').1 with ⟨b, hb⟩ | ⟨s', rfl⟩
        · exact absurd (place_lt_top hb) (not_lt.2 hle)
        · rw [infinity_add hsum', packed_infinity]
          exact hle
  · rw [add_infinity hsum, add_infinity hsum']

/-- The difference of doubles, if it is defined, is not negative unless they are the wrong way
round. -/
theorem place_sub_nonneg (hf : Canonical f) (hg : Canonical g)
    (hdiff : (UnpackedFloat.add .binary64 f g.neg).isNaN = false) (hle : place g ≤ place f) :
    0 ≤ place (packed (UnpackedFloat.add .binary64 f g.neg)) := by
  have hg' : g.isNaN = false := by
    have hneg := (isNaN_of_add hdiff).2
    cases g <;> first | rfl | cases hneg
  rcases value?_or_infinity (isNaN_of_add hdiff).1 with ⟨a, ha⟩ | ⟨s, rfl⟩
  · rcases value?_or_infinity hg' with ⟨b, hb⟩ | ⟨s, rfl⟩
    · rw [place_of_value? ha, place_of_value? hb, EReal.coe_le_coe_iff, Rat.cast_le] at hle
      exact (isRounded_add hf hg.neg ha (value?_neg hb)).place_nonneg (by linarith)
    · cases s with
      | positive => exact absurd (place_lt_top ha) (not_lt.2 hle)
      | negative =>
        have hsum : UnpackedFloat.add .binary64 f (.infinity .positive) = .infinity .positive :=
          add_infinity hdiff
        show 0 ≤ place (packed (UnpackedFloat.add .binary64 f (.infinity .positive)))
        rw [hsum, packed_infinity]
        exact le_top
  · rw [infinity_add hdiff, packed_infinity]
    cases s with
    | positive => exact le_top
    | negative =>
      rcases value?_or_infinity hg' with ⟨b, hb⟩ | ⟨s', rfl⟩
      · exact absurd (bot_lt_place hb) (not_lt.2 hle)
      · cases s' with
        | positive => exact absurd bot_lt_top (not_lt.2 hle)
        | negative => cases hdiff

end Double

namespace Number

open Double

variable {x y z : Float}

theorem place_eq (x : Float) : (Number.float x).place = Double.place x.toModel.unpack := by
  show (Binary64.decode x).place = _
  rw [Binary64.decode_eq]
  rfl

/-- Doubles in order stay in order when the same double is added, if both sums are defined. -/
theorem place_add_le (hsum : (x + z).isNaN = false) (hsum' : (y + z).isNaN = false)
    (hle : (Number.float x).place ≤ (Number.float y).place) :
    (Number.float (x + z)).place ≤ (Number.float (y + z)).place := by
  rw [place_eq, place_eq] at hle ⊢
  exact Double.place_add_le (canonical_unpack _) (canonical_unpack _) (canonical_unpack _)
    (isNaN_of_packed hsum) (isNaN_of_packed hsum') hle

/-- What is infinite outweighs what it is added to. -/
theorem place_add_infinite (hz : z.isFinite = false) (hsum : (x + z).isNaN = false) :
    (Number.float (x + z)).place = (Number.float z).place := by
  have hsum' : (UnpackedFloat.add .binary64 x.toModel.unpack z.toModel.unpack).isNaN = false :=
    isNaN_of_packed hsum
  replace hz : z.toModel.unpack.isFinite = false := hz
  rw [place_eq, place_eq]
  show Double.place (packed (UnpackedFloat.add .binary64 x.toModel.unpack z.toModel.unpack)) = _
  rcases value?_or_infinity (isNaN_of_add hsum').2 with ⟨c, hc⟩ | ⟨s, hs⟩
  · cases hparts : z.toModel.unpack <;> rw [hparts] at hc hz <;> first | cases hc; done | cases hz
  · rw [hs] at hsum' ⊢
    rw [add_infinity hsum', packed_infinity]

theorem isNaN_sub (hx : x.isNaN = false) (hy : y.isFinite = true) : (x - y).isNaN = false := by
  show (x - y).toModel.unpack.isNaN = false
  rw [unpack_sub]
  refine isNaN_unpack_pack (isNaN_unpacked_add hx ?_)
  replace hy : y.toModel.unpack.isFinite = true := hy
  cases hparts : y.toModel.unpack <;> rw [hparts] at hy <;> first | rfl | cases hy

/-- The difference of doubles, if it is defined, is not negative unless they are the wrong way
round. -/
theorem place_sub_nonneg (hdiff : (x - y).isNaN = false)
    (hle : (Number.float y).place ≤ (Number.float x).place) :
    0 ≤ (Number.float (x - y)).place := by
  replace hdiff : (x - y).toModel.unpack.isNaN = false := hdiff
  rw [place_eq, place_eq] at hle
  rw [place_eq, unpack_sub]
  rw [unpack_sub] at hdiff
  exact Double.place_sub_nonneg (canonical_unpack _) (canonical_unpack _)
    (isNaN_of_packed hdiff) hle

end Number

end ExpiringStore
