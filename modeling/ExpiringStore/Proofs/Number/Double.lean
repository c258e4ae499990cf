import ExpiringStore.Proofs.Number.Exact
import Mathlib

/-!
# Doubles by their parts

The arithmetic of doubles is defined on what their bits say: a sign, an exponent and a mantissa.
`decode` reads the same off the bits.  Comparison is that of these parts, and orders all numbers
that are defined; the sum of a defined number and a finite one is defined.

    decode x                    =   what the unpacked x says                         (decode_eq)
    a ≤ b                       =   not (b < a)      for numbers that are defined    (le_eq)
-/

namespace ExpiringStore

open Float.Model (UnpackedFloat)
open Float.Model.UnpackedFloat (Sign)

namespace Double

/-! ## Parts -/

def exponentBits (b : BitVec 64) : BitVec 11 := @UnpackedFloat.unpackExponent .binary64 b

def mantissaBits (b : BitVec 64) : BitVec 52 := @UnpackedFloat.unpackMantissa .binary64 b

def sign (b : BitVec 64) : Sign := Sign.ofBitVec (@UnpackedFloat.unpackSign .binary64 b)

theorem toNat_hidden (m : BitVec 52) : (1#1 ++ m).toNat = m.toNat + 2 ^ 52 := by
  rw [BitVec.toNat_append, ← Nat.shiftLeft_add_eq_or_of_lt m.isLt, Nat.add_comm]
  rfl

/-- A double of these parts.  The greatest exponent is for what is not finite, the least one for
what lacks the hidden digit. -/
def ofParts (s : Sign) (e : BitVec 11) (m : BitVec 52) : UnpackedFloat :=
  if e = -1#11 then
    if m = 0#52 then .infinity s else .notANumber
  else if e = 0#11 then
    if h : m = 0#52 then .zero s
    else .finite s m.toNat ((e.toNat : Int) - ((1023 : Nat) + (52 : Nat)) + 1)
      (by simpa [BitVec.toNat_pos, BitVec.pos_iff_ne_zero])
  else .finite s (1#1 ++ m).toNat ((e.toNat : Int) - ((1023 : Nat) + (52 : Nat)))
    (by rw [toNat_hidden]; omega)

theorem unpack_eq (b : BitVec 64) :
    UnpackedFloat.unpack .binary64 b = ofParts (sign b) (exponentBits b) (mantissaBits b) := rfl

theorem toNat_exponentBits (b : BitVec 64) :
    (exponentBits b).toNat = b.toNat / 2 ^ 52 % 2 ^ 11 := by
  simp [exponentBits, UnpackedFloat.unpackExponent, BitVec.extractLsb_toNat,
    Nat.shiftRight_eq_div_pow]

theorem toNat_mantissaBits (b : BitVec 64) : (mantissaBits b).toNat = b.toNat % 2 ^ 52 := by
  simp [mantissaBits, UnpackedFloat.unpackMantissa, BitVec.extractLsb_toNat]

theorem sign_eq (b : BitVec 64) : (sign b == .negative) = (b.toNat / 2 ^ 63 == 1) := by
  have hsign : b.toNat / 2 ^ 63 = (@UnpackedFloat.unpackSign .binary64 b).toNat := by
    have hlt := b.isLt
    simp [UnpackedFloat.unpackSign, BitVec.extractLsb_toNat, Nat.shiftRight_eq_div_pow]
    omega
  rw [hsign]
  unfold sign Sign.ofBitVec
  generalize @UnpackedFloat.unpackSign .binary64 b = s
  have hlt := s.isLt
  by_cases h : s = 0#1
  · subst h
    rfl
  · have hne : s.toNat ≠ 0 := fun h₀ => h (BitVec.eq_of_toNat_eq h₀)
    rw [if_neg h, show s.toNat = 1 by omega]
    rfl

theorem isNaN_ofParts (s : Sign) (e : BitVec 11) (m : BitVec 52) :
    (ofParts s e m).isNaN = (decide (e = -1#11) && !decide (m = 0#52)) := by
  unfold ofParts
  split
  · next he =>
    rw [decide_eq_true he]
    split
    · next hm => rw [decide_eq_true hm]; rfl
    · next hm => rw [decide_eq_false hm]; rfl
  · next he =>
    rw [decide_eq_false he]
    split
    · split <;> rfl
    · rfl

theorem isFinite_ofParts {e : BitVec 11} (h : e ≠ -1#11) (s : Sign) (m : BitVec 52) :
    (ofParts s e m).isFinite = true := by
  unfold ofParts
  rw [if_neg h]
  split
  · split <;> rfl
  · rfl

/-! ## Packing -/

/-- Parts that are packed are unpacked again. -/
theorem unpack_packComponents (s : Sign) (e : BitVec 11) (m : BitVec 52) :
    UnpackedFloat.unpack .binary64 (UnpackedFloat.packComponents .binary64 s e m) =
      ofParts s e m := by
  have hsign : sign (UnpackedFloat.packComponents .binary64 s e m) = s := by
    unfold sign
    rw [UnpackedFloat.unpackSign_packComponents, Sign.ofBitVec_toBitVec]
  have hexponent : exponentBits (UnpackedFloat.packComponents .binary64 s e m) = e :=
    UnpackedFloat.unpackExponent_packComponents
  have hmantissa : mantissaBits (UnpackedFloat.packComponents .binary64 s e m) = m :=
    UnpackedFloat.unpackMantissa_packComponents
  rw [unpack_eq, hsign, hexponent, hmantissa]

theorem exponent_ne {biased : Nat} (h : biased + 1 < 2048) : BitVec.ofNat 11 biased ≠ -1#11 := by
  rw [ne_eq, ← BitVec.toNat_inj, BitVec.toNat_ofNat, Nat.mod_eq_of_lt (by omega)]
  show biased ≠ 2047
  omega

/-- The exponent as it is packed. -/
def biased (e : Int) : Nat := (e + (1023 : Nat) + (52 : Nat)).toNat

theorem pack_finite {s : Sign} {m : Nat} {e : Int} {hm : 0 < m} :
    UnpackedFloat.pack .binary64 (.finite s m e hm) =
      if 2 ^ 11 ≤ biased e + 1 then UnpackedFloat.packComponents .binary64 s (-1#11) 0#52
      else if m.log2 + 1 = 53 then
        UnpackedFloat.packComponents .binary64 s (BitVec.ofNat 11 (biased e)) (BitVec.ofNat 52 m)
      else UnpackedFloat.packComponents .binary64 s 0#11 (BitVec.ofNat 52 m) := rfl

theorem isNaN_unpack_pack {f : UnpackedFloat} (h : f.isNaN = false) :
    (UnpackedFloat.unpack .binary64 (UnpackedFloat.pack .binary64 f)).isNaN = false := by
  cases f with
  | notANumber => cases h
  | infinity s =>
    show (UnpackedFloat.unpack .binary64 (UnpackedFloat.packComponents .binary64 s _ _)).isNaN = _
    rw [unpack_packComponents, isNaN_ofParts]
    rfl
  | zero s =>
    show (UnpackedFloat.unpack .binary64 (UnpackedFloat.packComponents .binary64 s _ _)).isNaN = _
    rw [unpack_packComponents, isNaN_ofParts]
    rfl
  | finite s m e hm =>
    rw [pack_finite]
    split
    · rw [unpack_packComponents, isNaN_ofParts]
      rfl
    · next hsmall =>
      split
      · rw [unpack_packComponents, isNaN_ofParts, decide_eq_false (exponent_ne (not_le.1 hsmall))]
        rfl
      · rw [unpack_packComponents, isNaN_ofParts]
        rfl

/-! ## Comparison -/

theorem compare_swap (a b : UnpackedFloat) : b.compare a = (a.compare b).map Ordering.swap := by
  have hint (e₁ e₂ : Int) : compare e₂ e₁ = (compare e₁ e₂).swap := Std.OrientedCmp.eq_swap
  have hnat (m₁ m₂ : Nat) : compare m₂ m₁ = (compare m₁ m₂).swap := Std.OrientedCmp.eq_swap
  have hfinite (e₁ e₂ : Int) (m₁ m₂ : Nat) : (compare e₂ e₁).then (compare m₂ m₁) =
      ((compare e₁ e₂).then (compare m₁ m₂)).swap := by
    rw [Ordering.swap_then, hint e₁, hnat m₁]
  rcases a with s | _ | s | ⟨s, m, e, h⟩ <;> rcases b with s' | _ | s' | ⟨s', m', e', h'⟩ <;>
    (try cases s) <;> (try cases s') <;> first
      | rfl
      | exact congrArg some (hfinite ..)
      | exact congrArg (some ·.swap) (hfinite ..)

/-- All doubles that are defined can be compared. -/
theorem isSome_compare {a b : UnpackedFloat} (ha : a.isNaN = false) (hb : b.isNaN = false) :
    (a.compare b).isSome = true := by
  rcases a with s | _ | s | ⟨s, m, e, h⟩ <;> rcases b with s' | _ | s' | ⟨s', m', e', h'⟩ <;>
    (try cases s) <;> (try cases s') <;> first | cases ha; done | cases hb; done | rfl

/-! ## Sums -/

theorem isNaN_round (s : Sign) (m : Nat) (e : Int) (a : UnpackedFloat.Accuracy) :
    (UnpackedFloat.roundWithAccuracy .binary64 s m e a).isNaN = false := by
  unfold UnpackedFloat.roundWithAccuracy
  dsimp only
  split <;> rfl

theorem isNaN_normalize (m : Int) (e : Int) (z : Sign) :
    (UnpackedFloat.normalize .binary64 m e z).isNaN = false := by
  unfold UnpackedFloat.normalize
  split
  · exact isNaN_round ..
  · rfl
  · exact isNaN_round ..

/-- A defined double and a finite one have a defined sum. -/
theorem isNaN_unpacked_add {a b : UnpackedFloat} (ha : a.isNaN = false) (hb : b.isFinite = true) :
    (UnpackedFloat.add .binary64 a b).isNaN = false := by
  rcases b with s' | _ | s' | ⟨s', m', e', h'⟩
  · cases hb
  · cases hb
  · rcases a with s | _ | s | ⟨s, m, e, h⟩
    · rfl
    · cases ha
    · show (if _ then _ else _ : UnpackedFloat).isNaN = false
      split <;> rfl
    · rfl
  · rcases a with s | _ | s | ⟨s, m, e, h⟩
    · rfl
    · cases ha
    · rfl
    · exact isNaN_normalize ..

theorem isNaN_add {x y : Float} (hx : x.isNaN = false) (hy : y.isFinite = true) :
    (x + y).isNaN = false := isNaN_unpack_pack (isNaN_unpacked_add hx hy)

end Double

/-! ## Numbers -/

def Binary64.ofUnpacked : UnpackedFloat → Binary64
  | .notANumber => .undefined
  | .infinity s => .infinite (s == .negative)
  | .zero s => .finite ⟨s == .negative, 0, -1074⟩
  | .finite s m e _ => .finite ⟨s == .negative, m, e⟩

theorem Binary64.decode_eq (x : Float) :
    Binary64.decode x = Binary64.ofUnpacked x.toModel.unpack := by
  obtain ⟨⟨⟨b⟩, valid⟩⟩ := x
  have htoNat {w : Nat} (a b : BitVec w) : (a.toNat == b.toNat) = decide (a = b) := by
    rw [Bool.eq_iff_iff, beq_iff_eq, decide_eq_true_iff, BitVec.toNat_inj]
  show (if b.toNat / 2 ^ 52 % 2 ^ 11 == (-1#11).toNat then
      if b.toNat % 2 ^ 52 == (0#52).toNat then Binary64.infinite (b.toNat / 2 ^ 63 == 1)
      else .undefined
    else if b.toNat / 2 ^ 52 % 2 ^ 11 == (0#11).toNat then
      .finite ⟨b.toNat / 2 ^ 63 == 1, b.toNat % 2 ^ 52, -1074⟩
    else .finite ⟨b.toNat / 2 ^ 63 == 1, b.toNat % 2 ^ 52 + 2 ^ 52,
      ((b.toNat / 2 ^ 52 % 2 ^ 11 : Nat) : Int) - 1075⟩) =
    Binary64.ofUnpacked (UnpackedFloat.unpack .binary64 b)
  rw [Double.unpack_eq, ← Double.sign_eq, ← Double.toNat_exponentBits,
    ← Double.toNat_mantissaBits, htoNat, htoNat, htoNat]
  unfold Double.ofParts
  by_cases hinfinite : Double.exponentBits b = -1#11
  · rw [if_pos hinfinite, if_pos (decide_eq_true hinfinite)]
    by_cases hzero : Double.mantissaBits b = 0#52
    · rw [if_pos hzero, if_pos (decide_eq_true hzero)]
      rfl
    · rw [if_neg hzero, if_neg (by simpa using hzero)]
      rfl
  · rw [if_neg hinfinite, if_neg (by simpa using hinfinite)]
    by_cases hleast : Double.exponentBits b = 0#11
    · rw [if_pos hleast, if_pos (decide_eq_true hleast)]
      by_cases hzero : Double.mantissaBits b = 0#52
      · rw [dif_pos hzero, hzero]
        rfl
      · rw [dif_neg hzero, hleast]
        rfl
    · rw [if_neg hleast, if_neg (by simpa using hleast), ← Double.toNat_hidden]
      rfl

namespace Number

theorem compare?_float_float (x y : Float) :
    (Number.float x).compare? (.float y) = x.toModel.unpack.compare y.toModel.unpack := by
  have hlt (x y : Float) : x < y ↔ x.toModel.unpack.compare y.toModel.unpack = some .lt := by
    show decide ((UnpackedFloat.compare _ _ == some .lt) = true) = true ↔ _
    simp
  have heq (x y : Float) :
      (x == y) = true ↔ x.toModel.unpack.compare y.toModel.unpack = some .eq := by
    show (UnpackedFloat.compare _ _ == some .eq) = true ↔ _
    simp
  show (if x < y then some Ordering.lt else if y < x then some .gt
    else if x == y then some .eq else none) = _
  simp only [hlt, heq, Double.compare_swap x.toModel.unpack y.toModel.unpack]
  cases x.toModel.unpack.compare y.toModel.unpack with
  | none => rfl
  | some o => cases o <;> rfl

theorem compare?_swap (a b : Number) : b.compare? a = (a.compare? b).map Ordering.swap := by
  have hswap : Ordering.swap ∘ Ordering.swap = id := funext fun o => Ordering.swap_swap
  cases a with
  | int m =>
    cases b with
    | int n =>
      have hint : compare n m = (compare m n).swap := Std.OrientedCmp.eq_swap
      exact congrArg some hint
    | float y =>
      rw [compare?_float_int, compare?_int_float, Option.map_map, hswap, Option.map_id, id]
  | float x =>
    cases b with
    | int n => rw [compare?_float_int, compare?_int_float]
    | float y => rw [compare?_float_float, compare?_float_float, Double.compare_swap]

theorem isSome_order {x : Float} (h : x.isNaN = false) (n : Int) :
    ((Binary64.decode x).order n).isSome = true := by
  rw [Binary64.decode_eq]
  replace h : x.toModel.unpack.isNaN = false := h
  cases hx : x.toModel.unpack with
  | notANumber =>
    rw [hx] at h
    cases h
  | _ => rfl

/-- All numbers that are defined can be compared. -/
theorem isSome_compare? {a b : Number} (ha : a.isNaN = false) (hb : b.isNaN = false) :
    (a.compare? b).isSome = true := by
  cases a with
  | int m =>
    cases b with
    | int n => rfl
    | float y =>
      rw [compare?_int_float, Option.isSome_map]
      exact isSome_order hb m
  | float x =>
    cases b with
    | int n =>
      rw [compare?_float_int]
      exact isSome_order ha n
    | float y =>
      rw [compare?_float_float]
      exact Double.isSome_compare ha hb

/-- One number that is defined is at most another if the other is not less. -/
theorem le_eq {a b : Number} (ha : a.isNaN = false) (hb : b.isNaN = false) :
    a.le b = !b.lt a := by
  obtain ⟨o, ho⟩ := Option.isSome_iff_exists.1 (isSome_compare? ha hb)
  have hs := compare?_swap a b
  unfold le lt
  rw [hs, ho]
  cases o <;> rfl

end Number

end ExpiringStore
