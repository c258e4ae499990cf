import ExpiringStore.Proofs.Number.Canonical

/-!
# The line of numbers

A number that is defined lies somewhere on the extended line: at its value, or at one of the ends.
Comparing numbers, whole or double, compares their places.  So what holds of the order of the line
holds of numbers.

    a.compare? b          =   a.place compared with b.place                    (compare?_place)
    a < b ≤ c             →   a < c                                            (lt_of_lt_of_le)
-/

namespace ExpiringStore

/-- Where that lies which is read off a double. -/
noncomputable def Binary64.place : Binary64 → EReal
  | .finite d => ((d.value : ℝ) : EReal)
  | .infinite negative => if negative then ⊥ else ⊤
  | .undefined => 0

theorem Binary64.place_of_value? {b : Binary64} {q : ℚ} (h : b.value? = some q) :
    b.place = ((q : ℝ) : EReal) := by
  cases b with
  | finite d =>
    obtain rfl := Option.some.inj h
    rfl
  | infinite negative => cases h
  | undefined => cases h

namespace Number

/-- Where a number lies. -/
noncomputable def place : Number → EReal
  | .int n => ((n : ℝ) : EReal)
  | .float x => (Binary64.decode x).place

theorem place_of_value? {a : Number} {q : ℚ} (h : a.value? = some q) :
    a.place = ((q : ℝ) : EReal) := by
  cases a with
  | int n =>
    obtain rfl := Option.some.inj h
    exact congrArg ((↑) : ℝ → EReal) (Rat.cast_intCast n).symm
  | float x => exact Binary64.place_of_value? h

/-- A number that is defined has a value, or it is infinite. -/
theorem value?_or_infinite {a : Number} (ha : a.isNaN = false) :
    (∃ q, a.value? = some q) ∨
      ∃ x negative, a = .float x ∧ Binary64.decode x = .infinite negative := by
  cases a with
  | int n => exact .inl ⟨n, rfl⟩
  | float x =>
    cases hx : Binary64.decode x with
    | finite d => exact .inl ⟨d.value, value?_float hx⟩
    | infinite negative => exact .inr ⟨x, negative, rfl, hx⟩
    | undefined =>
      rw [Binary64.decode_eq] at hx
      have hundefined : x.toModel.unpack.isNaN = false := ha
      cases hparts : x.toModel.unpack <;> rw [hparts] at hx hundefined <;> cases hx
      cases hundefined

theorem compare_coe (p q : ℚ) : compare p q = compare ((p : ℝ) : EReal) ((q : ℝ) : EReal) := by
  rcases lt_trichotomy p q with h | rfl | h
  · rw [compare_lt_iff_lt.2 h, compare_lt_iff_lt.2 (EReal.coe_lt_coe_iff.2 (Rat.cast_lt.2 h))]
  · rw [compare_eq_iff_eq.2 rfl, compare_eq_iff_eq.2 rfl]
  · rw [compare_gt_iff_gt.2 h, compare_gt_iff_gt.2 (EReal.coe_lt_coe_iff.2 (Rat.cast_lt.2 h))]

theorem unpack_of_infinite {x : Float} {negative : Bool}
    (h : Binary64.decode x = .infinite negative) :
    ∃ s, x.toModel.unpack = .infinity s ∧ negative = (s == .negative) := by
  rw [Binary64.decode_eq] at h
  cases hx : x.toModel.unpack with
  | infinity s =>
    rw [hx] at h
    exact ⟨s, rfl, (Binary64.infinite.inj h).symm⟩
  | _ =>
    rw [hx] at h
    cases h

/-- What is infinite lies beyond all that has a value. -/
theorem compare?_infinite_value {x : Float} {negative : Bool} {b : Number} {q : ℚ}
    (hx : Binary64.decode x = .infinite negative) (hb : b.value? = some q) :
    (Number.float x).compare? b = some (if negative then .lt else .gt) := by
  cases b with
  | int n =>
    rw [compare?_float_int, hx]
    rfl
  | float y =>
    obtain ⟨s, hs, rfl⟩ := unpack_of_infinite hx
    rw [compare?_float_float, hs]
    rw [value?_eq] at hb
    cases hy : y.toModel.unpack <;> rw [hy] at hb <;> first | cases hb; done | cases s <;> rfl

/-- Comparing numbers that are defined compares their places. -/
theorem compare?_place {a b : Number} (ha : a.isNaN = false) (hb : b.isNaN = false) :
    a.compare? b = some (compare a.place b.place) := by
  have hends {x : Float} {negative : Bool} {b : Number} {q : ℚ}
      (hx : Binary64.decode x = .infinite negative) (hq : b.value? = some q) :
      (Number.float x).compare? b = some (compare (Number.float x).place b.place) := by
    rw [compare?_infinite_value hx hq, place_of_value? hq]
    show _ = some (compare (Binary64.decode x).place _)
    rw [hx]
    cases negative with
    | true => exact congrArg some (compare_lt_iff_lt.2 (EReal.bot_lt_coe _)).symm
    | false => exact congrArg some (compare_gt_iff_gt.2 (EReal.coe_lt_top _)).symm
  rcases value?_or_infinite ha with ⟨p, hp⟩ | ⟨x, negative, rfl, hx⟩
  · rcases value?_or_infinite hb with ⟨q, hq⟩ | ⟨y, negative, rfl, hy⟩
    · rw [compare?_eq hp hq, place_of_value? hp, place_of_value? hq, compare_coe]
    · rw [compare?_swap (.float y) a, hends hy hp]
      exact congrArg some Std.OrientedCmp.eq_swap.symm
  · rcases value?_or_infinite hb with ⟨q, hq⟩ | ⟨y, negative', rfl, hy⟩
    · exact hends hx hq
    · show _ = some (compare (Binary64.decode x).place (Binary64.decode y).place)
      rw [hx, hy]
      obtain ⟨s, hs, rfl⟩ := unpack_of_infinite hx
      obtain ⟨s', hs', rfl⟩ := unpack_of_infinite hy
      rw [compare?_float_float, hs, hs']
      cases s <;> cases s'
      · exact congrArg some (compare_eq_iff_eq.2 rfl).symm
      · exact congrArg some (compare_lt_iff_lt.2 bot_lt_top).symm
      · exact congrArg some (compare_gt_iff_gt.2 bot_lt_top).symm
      · exact congrArg some (compare_eq_iff_eq.2 rfl).symm

theorem lt_iff_place {a b : Number} (ha : a.isNaN = false) (hb : b.isNaN = false) :
    a.lt b = true ↔ a.place < b.place := by
  unfold lt
  rw [compare?_place ha hb, ← compare_lt_iff_lt]
  simp

theorem le_iff_place {a b : Number} (ha : a.isNaN = false) (hb : b.isNaN = false) :
    a.le b = true ↔ a.place ≤ b.place := by
  rw [le_eq ha hb, Bool.not_eq_true', ← Bool.not_eq_true, lt_iff_place hb ha, not_lt]

/-- Nothing compares with what is undefined. -/
theorem compare?_undefined (a : Number) {y : Float} (hy : y.isNaN = true) :
    a.compare? (.float y) = none := by
  replace hy : y.toModel.unpack.isNaN = true := hy
  cases hparts : y.toModel.unpack with
  | notANumber =>
    cases a with
    | int n =>
      rw [compare?_int_float, Binary64.decode_eq, hparts]
      rfl
    | float x =>
      rw [compare?_float_float, hparts]
      cases x.toModel.unpack with
      | infinity s => cases s <;> rfl
      | _ => rfl
  | _ =>
    rw [hparts] at hy
    cases hy

theorem isNaN_of_le {a b : Number} (h : a.le b = true) : b.isNaN = false := by
  cases b with
  | int n => rfl
  | float y =>
    refine Bool.eq_false_iff.2 fun hy => ?_
    unfold le at h
    rw [compare?_undefined a hy] at h
    cases h

/-- What is less than a number is less than any that is no less. -/
theorem lt_of_lt_of_le {a b c : Number} (ha : a.isNaN = false) (hb : b.isNaN = false)
    (hc : c.isNaN = false) (hab : a.lt b = true) (hbc : b.le c = true) : a.lt c = true :=
  (lt_iff_place ha hc).2
    (((lt_iff_place ha hb).1 hab).trans_le ((le_iff_place hb hc).1 hbc))

end Number

end ExpiringStore
