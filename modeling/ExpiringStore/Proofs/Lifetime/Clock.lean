import ExpiringStore.Proofs.Lifetime.Fresh
import ExpiringStore.Proofs.Number.Rounded

/-!
# Lifetimes by a clock

A clock tells the seconds since its epoch as a double.  A deadline is rounded, and so is what is
left until then, but a duration is a whole number of microseconds: as long as the deadline is below
2^32 seconds, what is left of n seconds is n seconds to less than half a microsecond.

    |now| + n < 2^32      →   now bears n                                        (bears_float)
-/

namespace ExpiringStore

/-! ## Rounded durations -/

/-- A fraction nearest to a whole number is rounded to it. -/
theorem roundRatio_of_near {n : Int} {d : Nat} {w : Int} (hd : 0 < d)
    (near : |(n / d : ℚ) - w| < 1 / 2) : roundRatio n d = w := by
  have hpos : (0 : ℚ) < d := Nat.cast_pos.2 hd
  obtain ⟨least, most⟩ := abs_lt.1 near
  have hleast : 2 * (w * d) < 2 * n + d := by
    have : (w - 1 / 2 : ℚ) < n / d := by linarith
    rw [lt_div_iff₀ hpos] at this
    have hcast : (2 * (w * d) : ℚ) < 2 * n + d := by linarith
    exact_mod_cast hcast
  have hmost : 2 * n < 2 * (w * d) + d := by
    have : (n / d : ℚ) < w + 1 / 2 := by linarith
    rw [div_lt_iff₀ hpos] at this
    have hcast : (2 * n : ℚ) < 2 * (w * d) + d := by linarith
    exact_mod_cast hcast
  have hd' : (0 : Int) < d := Int.natCast_pos.2 hd
  unfold roundRatio
  dsimp only
  rw [Int.fdiv_eq_ediv_of_nonneg _ hd'.le]
  rcases lt_or_ge n (w * d) with hbelow | habove
  · have hfloor : n / (d : Int) = w - 1 :=
      le_antisymm (Int.le_sub_one_of_lt (Int.ediv_lt_of_lt_mul hd' hbelow))
        (Int.le_ediv_of_mul_le hd' (by rw [Int.sub_mul]; omega))
    rw [hfloor, Int.sub_mul, Int.one_mul, if_neg (by omega), if_pos (by omega)]
    omega
  · have hfloor : n / (d : Int) = w :=
      le_antisymm (Int.lt_add_one_iff.1 (Int.ediv_lt_of_lt_mul hd' (by rw [Int.add_mul]; omega)))
        (Int.le_ediv_of_mul_le hd' habove)
    rw [hfloor, if_pos (by omega)]

namespace Duration

variable {x : Float} {q : ℚ} {n : Int}

/-- A value that is nearest to whole seconds is cut to these, or to one less. -/
theorem truncate_near {d : Dyadic} (near : |d.value - n| ≤ 1 / 2 ^ 21) (least : 1 ≤ n) :
    n - 1 ≤ d.truncate ∧ d.truncate ≤ n := by
  obtain ⟨hleast, hmost⟩ := abs_le.1 near
  have hone : (1 : ℚ) ≤ n := by exact_mod_cast least
  norm_num at hleast
  obtain ⟨hbelow, habove⟩ := Dyadic.truncate_floor (d := d) (by linarith)
  constructor
  · have hlt : ((n - 1 : Int) : ℚ) < ((d.truncate + 1 : Int) : ℚ) := by
      push_cast
      linarith
    exact Int.lt_add_one_iff.1 (Int.cast_lt.1 hlt)
  · have hlt : (d.truncate : ℚ) < ((n + 1 : Int) : ℚ) := by
      push_cast
      norm_num at hmost
      linarith
    exact Int.lt_add_one_iff.1 (Int.cast_lt.1 hlt)

theorem value_million : (Number.float 1000000).value? = some 1000000 := by
  have decodes : Binary64.decode (1000000 : Float) = .finite ⟨false, 1000000 * 2 ^ 33, -33⟩ := by
    rfl
  rw [Number.value?_float decodes, Dyadic.value_eq]
  norm_num [Dyadic.signed]

/-- What is beyond the seconds that are cut off is a whole number of seconds in microseconds, but
for less than half a microsecond. -/
theorem fraction_near {y : Float} {w : Int} (value : (Number.float x).value? = some q)
    (near : |q - n| ≤ 1 / 2 ^ 21) (whole : (Number.float y).value? = some (w : ℚ))
    (below : n - 1 ≤ w) (above : w ≤ n) :
    ∃ c, (Number.float ((x - y) * 1000000)).value? = some c ∧
      |c - ((n - w) * microsPerSecond : Int)| < 1 / 2 := by
  have hbelow : (n - 1 : ℚ) ≤ w := by exact_mod_cast below
  have habove : (w : ℚ) ≤ n := by exact_mod_cast above
  obtain ⟨hleast, hmost⟩ := abs_le.1 near
  obtain ⟨f, hf, hdifference⟩ := Number.near_sub (k := 1) value whole
    (abs_lt.2 ⟨by norm_num at hleast ⊢; linarith, by norm_num at hmost ⊢; linarith⟩) (by decide)
  obtain ⟨hleast', hmost'⟩ := abs_le.1 hdifference
  norm_num at hleast hmost hleast' hmost'
  obtain ⟨c, hc, hproduct⟩ := Number.near_mul (k := 21) hf value_million
    (abs_lt.2 ⟨by linarith, by linarith⟩) (by decide)
  obtain ⟨hleast'', hmost''⟩ := abs_le.1 hproduct
  norm_num at hleast'' hmost''
  refine ⟨c, hc, abs_lt.2 ?_⟩
  unfold microsPerSecond
  push_cast
  constructor <;> linarith

/-- A double that is nearest to whole seconds is as long as these. -/
theorem ofSeconds?_near (value : (Number.float x).value? = some q) (near : |q - n| ≤ 1 / 2 ^ 21)
    (least : 1 ≤ n) (most : n ≤ longest) :
    ofSeconds? (.float x) = .ok ⟨n * microsPerSecond⟩ := by
  obtain ⟨d, decodes, rfl⟩ := Number.finite_of_value? value
  obtain ⟨hbelow, habove⟩ := truncate_near near least
  obtain ⟨y, dy, hy, decodes', hwhole⟩ := Number.value_doubleOfInt (n := d.truncate)
    (by unfold longest at most; omega)
  obtain ⟨c, hc, hnear⟩ := fraction_near value near
    ((Number.value?_float decodes').trans (congrArg some hwhole)) hbelow habove
  obtain ⟨f, decodes'', rfl⟩ := Number.finite_of_value? hc
  have hmicros : d.truncate * microsPerSecond + roundRatio f.numerator f.denominator =
      n * microsPerSecond := by
    rw [roundRatio_of_near f.denominator_pos hnear, Int.sub_mul]
    omega
  unfold ofSeconds?
  dsimp only
  rw [decodes]
  dsimp only
  rw [hy, Option.getD_some, decodes'']
  dsimp only
  rw [hmicros]
  exact ofSeconds?_int (by omega) most

end Duration

namespace Number

variable {x : Float} {a : ℚ} {n : Int}

theorem length_lt (most : |a| + n < 2 ^ 32) : n < 2 ^ 32 := by
  have hlt : (n : ℚ) < ((2 ^ 32 : Int) : ℚ) := by
    push_cast
    linarith [abs_nonneg a]
  exact Int.cast_lt.1 hlt

/-- The deadline of a lifetime that is given at a reading, and what is left until then. -/
theorem near_deadline {y : Float} (value : (Number.float x).value? = some a)
    (length : (Number.float y).value? = some (n : ℚ)) (least : 1 ≤ n) (most : |a| + n < 2 ^ 32) :
    ∃ b c, (Number.float (x + y)).value? = some b ∧ a ≤ b ∧
      (Number.float (x + y - x)).value? = some c ∧ |c - n| ≤ 1 / 2 ^ 21 := by
  have hone : (1 : ℚ) ≤ n := by exact_mod_cast least
  have hlow := neg_abs_le a
  have hhigh := le_abs_self a
  have hwhole : (n : ℚ) ≤ 2 ^ 32 - 1 := by
    exact_mod_cast Int.le_sub_one_of_lt (length_lt most)
  norm_num at most hwhole
  obtain ⟨b, hb, hsum⟩ := near_add (k := 32) value length
    (abs_lt.2 ⟨by norm_num; linarith, by norm_num; linarith⟩) (by decide)
  obtain ⟨hleast, hmost⟩ := abs_le.1 hsum
  norm_num at hleast hmost
  obtain ⟨c, hc, hdifference⟩ := near_sub (k := 32) hb value
    (abs_lt.2 ⟨by norm_num; linarith, by norm_num; linarith⟩) (by decide)
  obtain ⟨hleast', hmost'⟩ := abs_le.1 hdifference
  norm_num at hleast' hmost'
  refine ⟨b, c, hb, by linarith, hc, abs_le.2 ?_⟩
  norm_num
  constructor <;> linarith

/-- A clock bears a lifetime that ends before its readings take 33 binary digits. -/
theorem bears_float (value : (Number.float x).value? = some a) (least : 1 ≤ n)
    (most : |a| + n < 2 ^ 32) : (Number.float x).Bears n := by
  have hwhole := length_lt most
  obtain ⟨y, d, hy, decodes, hlength⟩ := value_doubleOfInt (n := n) (by omega)
  obtain ⟨b, c, hdeadline, hlater, hleft, hnear⟩ := near_deadline value
    ((value?_float decodes).trans (congrArg some hlength)) least most
  have hsum : (Number.float x).add (.int n) = .float (x + y) := by
    show ((doubleOfInt? n).bind fun y => some (Number.float (x + y))).getD _ = _
    rw [hy]
    rfl
  refine bears_of (p := .absolute) (isNaN_of_value? value) ?_ ?_
  · unfold Lifetime.isExpired
    rw [Lifetime.deadline_fresh, hsum]
    show (Number.float (x + y)).lt (.float x) = false
    rw [lt_eq hdeadline value]
    exact decide_eq_false (not_lt.2 hlater)
  · have hlive : Instant.isNegative (Number.float (x + y - x)) = false := by
      show (Number.float (x + y - x)).lt (.int 0) = false
      rw [lt_eq hleft (q := ((0 : Int) : ℚ)) rfl]
      have hone : (1 : ℚ) ≤ n := by exact_mod_cast least
      obtain ⟨hlow, -⟩ := abs_le.1 hnear
      norm_num at hlow
      exact decide_eq_false (not_lt.2 (by norm_num; linarith))
    have hremaining : (Lifetime.fresh (.float x) n .absolute).remaining (.float x) =
        some (.float (x + y - x)) := by
      unfold Lifetime.remaining
      rw [Lifetime.deadline_fresh, hsum]
      show (if Instant.isNegative (Number.float (x + y - x)) then none
        else some (Number.float (x + y - x))) = _
      rw [hlive]
      rfl
    unfold Lifetime.remainingDuration
    rw [hremaining]
    exact congrArg (Except.map some) (Duration.ofSeconds?_near hleft hnear least
      (by unfold Duration.longest; omega))

end Number

end ExpiringStore
