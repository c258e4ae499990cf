import ExpiringStore.Proofs.Number.Double
import ExpiringStore.Store.Arguments

/-!
# Amounts of time

A lifetime is given as a whole number, as a double or as a duration.  It has an exact value in
seconds, unless it is infinite or undefined, and it is checked as a double: one under a second is
refused, one of whole seconds is cut to them, and anything else fails in a way of its own.

    v spans n            n ≤ v < n + 1, compared exactly
    v is admissible      v spans n, for an n of at least one second that a duration can hold
    a double under one second   →   refused                                              (ttl_under)
    a double of n whole seconds →   n                                                    (ttl_whole)
-/

namespace ExpiringStore

open Float.Model (UnpackedFloat)

namespace Dyadic

variable {d : Dyadic}

theorem truncate_lt_one (h : d.numerator ≤ 0) : d.truncate < 1 := by
  have hpos := d.denominator_pos
  unfold truncate
  obtain ⟨n, hn⟩ : ∃ n : Nat, d.numerator = -(n : Int) := ⟨d.numerator.natAbs, by omega⟩
  rw [hn, Int.neg_tdiv, Int.tdiv_eq_ediv_of_nonneg (Int.natCast_nonneg n)]
  have := Int.ediv_nonneg (Int.natCast_nonneg n) (Int.natCast_nonneg d.denominator)
  omega

theorem one_le_truncate (h : 1 ≤ d.value) : 1 ≤ d.truncate := by
  have hnumerator : (d.denominator : Int) ≤ d.numerator := by
    by_contra hlt
    have hless : d.value < ((1 : Int) : ℚ) := value_lt_iff.2 (by omega)
    exact absurd hless (not_lt.2 (by exact_mod_cast h))
  have hpos : (0 : Int) < d.denominator := Int.natCast_pos.2 d.denominator_pos
  unfold truncate
  rw [Int.tdiv_eq_ediv_of_nonneg (hpos.le.trans hnumerator)]
  exact Int.le_ediv_of_mul_le hpos (by omega)

theorem truncate_of_value {n : Int} (h : d.value = n) : d.truncate = n := by
  have hnumerator : d.numerator = n * d.denominator := by
    refine le_antisymm (not_lt.1 fun hlt => ?_) (not_lt.1 fun hlt => ?_)
    · exact absurd (lt_value_iff.2 hlt) (not_lt.2 h.le)
    · exact absurd (value_lt_iff.2 hlt) (not_lt.2 h.ge)
  unfold truncate
  rw [hnumerator]
  exact Int.mul_tdiv_cancel n (Int.natCast_pos.2 d.denominator_pos).ne'

/-- A value that is not negative is cut to its whole part. -/
theorem truncate_floor (h : 0 ≤ d.value) :
    (d.truncate : ℚ) ≤ d.value ∧ d.value < d.truncate + 1 := by
  have hdenominator : (0 : Int) < d.denominator := Int.natCast_pos.2 d.denominator_pos
  have hfloor : d.truncate = d.numerator / d.denominator :=
    Int.tdiv_eq_ediv_of_nonneg (numerator_nonneg h)
  constructor
  · refine not_lt.1 fun hlt => ?_
    have hless := value_lt_iff.1 hlt
    rw [hfloor] at hless
    exact absurd (Int.ediv_mul_le d.numerator hdenominator.ne') (not_le.2 hless)
  · have hlt : d.value < ((d.truncate + 1 : Int) : ℚ) := by
      rw [value_lt_iff, hfloor]
      exact Int.lt_ediv_add_one_mul_self _ hdenominator
    exact_mod_cast hlt

/-- A value of at least one second has as many whole seconds as it is cut to. -/
theorem truncate_spans (least : 1 ≤ d.truncate) :
    (d.truncate : ℚ) ≤ d.value ∧ d.value < d.truncate + 1 := by
  refine truncate_floor (not_lt.1 fun hneg => ?_)
  have hless : d.value < ((0 : Int) : ℚ) := hneg.trans_eq Int.cast_zero.symm
  have hunder := truncate_lt_one (d := d) (by have := value_lt_iff.1 hless; omega)
  omega

/-- The whole part is between the value and one less. -/
theorem truncate_eq {n : Int} (least : 0 ≤ n) (below : (n : ℚ) ≤ d.value)
    (above : d.value < n + 1) : d.truncate = n := by
  have hnonneg : (0 : ℚ) ≤ n := by exact_mod_cast least
  obtain ⟨hlow, hhigh⟩ := truncate_floor (hnonneg.trans below)
  have hle : d.truncate < n + 1 := by exact_mod_cast hlow.trans_lt above
  have hge : n < d.truncate + 1 := by exact_mod_cast below.trans_lt hhigh
  omega

end Dyadic

/-! ## Doubles under one second -/

/-- Is a double less than one second?  Less than nothing is. -/
def Binary64.isUnderOne : Binary64 → Bool
  | .finite d => d.truncate < 1
  | .infinite negative => negative
  | .undefined => false

/-- What is not positive is under one second, and less than anything is not positive. -/
theorem Double.le_zero {x : Float} :
    (x ≤ 0 → (Binary64.decode x).isUnderOne = true) ∧
      (Binary64.decode x = .infinite true → x ≤ 0) := by
  have hzero : (0 : Float).toModel.unpack = .zero .positive := rfl
  have hle : x ≤ 0 ↔ UnpackedFloat.le x.toModel.unpack (.zero .positive) = true := by
    rw [← hzero]
    show decide (UnpackedFloat.le _ _ = true) = true ↔ _
    simp
  rw [hle, Binary64.decode_eq]
  have hnegative (m : Nat) (e : Int) : (Binary64.finite ⟨true, m, e⟩).isUnderOne = true :=
    decide_eq_true (Dyadic.truncate_lt_one (Int.mul_nonpos_of_nonpos_of_nonneg
      (Int.neg_nonpos_of_nonneg (Int.natCast_nonneg m)) (Int.natCast_nonneg _)))
  have hnothing (b : Bool) : (Binary64.finite ⟨b, 0, -1074⟩).isUnderOne = true :=
    decide_eq_true (Dyadic.truncate_lt_one (Dyadic.numerator_zero b _).le)
  rcases x.toModel.unpack with s | _ | s | ⟨s, m, e, hm⟩
  · cases s with
    | positive => exact ⟨nofun, nofun⟩
    | negative => exact ⟨fun _ => rfl, fun _ => rfl⟩
  · exact ⟨nofun, nofun⟩
  · exact ⟨fun _ => hnothing _, nofun⟩
  · cases s with
    | positive => exact ⟨nofun, nofun⟩
    | negative => exact ⟨fun _ => hnegative m e, nofun⟩

theorem Double.not_le_zero {x : Float} (h : (Binary64.decode x).isUnderOne = false) : ¬x ≤ 0 :=
  fun hle => Bool.noConfusion ((Double.le_zero.1 hle).symm.trans h)

/-! ## Lifetime arguments -/

/-- The seconds that a duration can hold, its fraction aside. -/
def Duration.longest : Int := 86399999999999

namespace Value

/-- Is it of a type in which a lifetime is given? -/
def IsTime (v : Value) : Prop := (∃ n, v = .int n) ∨ (∃ x, v = .float x) ∨ ∃ d, v = .duration d

/-- The exact value in seconds, if there is one. -/
def exactSeconds? : Value → Option ℚ
  | .int n => some n
  | .float x => (Binary64.decode x).value?
  | .duration d => some (d.micros / 1000000)
  | _ => Option.none

/-- The double as which a lifetime is checked, if there is one. -/
def inSeconds? : Value → Option Float
  | .duration d => some d.toSeconds
  | v => v.number?.bind Number.toDouble?

/-- The whole seconds of a lifetime are so many. -/
def Spans (v : Value) (n : Int) : Prop :=
  ∃ q, v.exactSeconds? = some q ∧ (n : ℚ) ≤ q ∧ q < n + 1

/-- A finite lifetime of at least one second that is not too long to be kept and to be told. -/
def IsAdmissible (v : Value) : Prop := ∃ n, 1 ≤ n ∧ n ≤ Duration.longest ∧ v.Spans n

/-- A lifetime spans only one number of whole seconds. -/
theorem Spans.unique {v : Value} {m n : Int} (hm : v.Spans m) (hn : v.Spans n) : m = n := by
  obtain ⟨q, hq, hlow, hhigh⟩ := hm
  obtain ⟨q', hq', hlow', hhigh'⟩ := hn
  obtain rfl := Option.some.inj (hq.symm.trans hq')
  have hle : m < n + 1 := by exact_mod_cast hlow.trans_lt hhigh'
  have hge : n < m + 1 := by exact_mod_cast hlow'.trans_lt hhigh
  omega

/-- A whole number spans itself. -/
theorem spans_int (n : Int) : (Value.int n).Spans n := ⟨n, rfl, le_rfl, lt_add_one _⟩

/-- A duration spans its microseconds, a million to one. -/
theorem spans_duration (d : Duration) : (Value.duration d).Spans (d.micros / 1000000) := by
  refine ⟨_, rfl, ?_, ?_⟩
  · rw [le_div_iff₀ (by norm_num)]
    exact_mod_cast Int.ediv_mul_le d.micros (by decide)
  · rw [div_lt_iff₀ (by norm_num)]
    exact_mod_cast Int.lt_ediv_add_one_mul_self d.micros (by decide)

theorem spans_float {x : Float} {d : Dyadic} (decodes : Binary64.decode x = .finite d)
    (least : 1 ≤ d.truncate) : (Value.float x).Spans d.truncate :=
  ⟨d.value, congrArg Binary64.value? decodes, Dyadic.truncate_spans least⟩

/-- A double that is cut to less than one second is under one second. -/
theorem not_isAdmissible_float {x : Float} {d : Dyadic} (decodes : Binary64.decode x = .finite d)
    (under : d.truncate < 1) : ¬(Value.float x).IsAdmissible := by
  rintro ⟨n, least, -, q, hq, hle, -⟩
  obtain rfl := Option.some.inj ((congrArg Binary64.value? decodes).symm.trans hq)
  have hone : (1 : ℚ) ≤ d.value := le_trans (by exact_mod_cast least) hle
  exact absurd (Dyadic.one_le_truncate hone) (not_le.2 under)

end Value

namespace Arguments

variable {v : Value} {x : Float}

/-- A lifetime is checked as a double, unless there is none. -/
theorem seconds_eq (time : v.IsTime) (operation : String) (about : Option Key) :
    seconds v operation about =
      (v.inSeconds?).elim (.error .tooLargeForDouble) .ok := by
  rcases time with ⟨n, rfl⟩ | ⟨x, rfl⟩ | ⟨d, rfl⟩
  · have hdouble : (Value.int n).inSeconds? = (Number.int n).toDouble? := rfl
    simp only [seconds, Value.number?, hdouble]
    cases (Number.int n).toDouble? <;> rfl
  · rfl
  · rfl

theorem ttl_eq (time : v.IsTime) (operation : String) (about : Option Key)
    (double : v.inSeconds? = some x) : ttl v operation about =
    if x ≤ 0 then refuse .ttlNotPositive operation about
    else match Binary64.decode x with
      | .undefined => .error .undefinedNumber
      | .infinite _ => .error .infiniteNumber
      | .finite d =>
        if d.truncate < 1 then refuse .ttlUnderOneSecond operation about else .ok d.truncate := by
  unfold ttl
  rw [seconds_eq time operation about, double]
  rfl

theorem ttl_under (time : v.IsTime) (operation : String) (about : Option Key)
    (double : v.inSeconds? = some x) (under : (Binary64.decode x).isUnderOne = true) :
    ∃ cause, ttl v operation about = refuse cause operation about ∧ cause.kind = .validation := by
  rw [ttl_eq time operation about double]
  split
  · exact ⟨_, rfl, rfl⟩
  · next hpositive =>
    cases hx : Binary64.decode x with
    | undefined => rw [hx] at under; cases under
    | infinite negative =>
      rw [hx] at under
      obtain rfl : negative = true := under
      exact absurd (Double.le_zero.2 hx) hpositive
    | finite d =>
      rw [hx] at under
      exact ⟨_, if_pos (of_decide_eq_true under), rfl⟩

/-- A double of at least one second is cut to whole seconds. -/
theorem ttl_whole {d : Dyadic} (time : v.IsTime) (operation : String) (about : Option Key)
    (double : v.inSeconds? = some x) (decodes : Binary64.decode x = .finite d)
    (least : 1 ≤ d.truncate) :
    ttl v operation about = .ok d.truncate := by
  have hlong : ¬d.truncate < 1 := not_lt.2 least
  have hunder : (Binary64.decode x).isUnderOne = false := by
    rw [decodes]
    exact decide_eq_false hlong
  rw [ttl_eq time operation about double, if_neg (Double.not_le_zero hunder), decodes]
  exact if_neg hlong

/-- A lifetime is refused, cut to whole seconds, or fails with what is no complaint. -/
theorem ttl_cases (time : v.IsTime) (operation : String) (about : Option Key) :
    (∃ x, v.inSeconds? = some x ∧ (Binary64.decode x).isUnderOne = true) ∨
      (∃ x d, v.inSeconds? = some x ∧ Binary64.decode x = .finite d ∧ 1 ≤ d.truncate) ∨
      ∃ f, ttl v operation about = .error f ∧ f.complaint? = none := by
  cases hdouble : v.inSeconds? with
  | none =>
    refine .inr (.inr ⟨.tooLargeForDouble, ?_, rfl⟩)
    unfold ttl
    rw [seconds_eq time operation about, hdouble]
    rfl
  | some x =>
    cases hunder : (Binary64.decode x).isUnderOne with
    | true => exact .inl ⟨x, rfl, hunder⟩
    | false =>
      have httl := ttl_eq time operation about hdouble
      rw [if_neg (Double.not_le_zero hunder)] at httl
      cases hx : Binary64.decode x with
      | undefined => exact .inr (.inr ⟨.undefinedNumber, by rw [httl, hx], rfl⟩)
      | infinite negative => exact .inr (.inr ⟨.infiniteNumber, by rw [httl, hx], rfl⟩)
      | finite d =>
        rw [hx] at hunder
        exact .inr (.inl ⟨x, d, rfl, hx, not_lt.1 (of_decide_eq_false hunder)⟩)

end Arguments

end ExpiringStore
