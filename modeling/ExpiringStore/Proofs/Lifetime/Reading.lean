import ExpiringStore.Proofs.Lifetime.Known
import ExpiringStore.Proofs.Lifetime.Ordered
import ExpiringStore.Proofs.Number.Monotone
import ExpiringStore.Retry

/-!
# Readings of the running clock

The clock of the running store shows doubles.  Those that are defined are ordered instants, and
though their sums are rounded, they are in order.  A reading and the whole seconds that a table
keeps have the sum that the running store computes, so entries live as long there as they do over
readings.

    a ≤ b                       →   a + n ≤ b + n                              (the instance)
    expired over readings       =   expired in the running store               (isExpired_toNumber)
    time left over readings     =   time left in the running store             (remaining_toNumber)
-/

namespace ExpiringStore

/-- A double that is defined. -/
structure Reading where
  value : Float
  known : value.isNaN = false
  deriving DecidableEq

namespace Reading

def ofDouble (x : Float) (otherwise : Reading) : Reading :=
  if h : x.isNaN = false then ⟨x, h⟩ else otherwise

def ofWhole (n : Int) : Reading := ⟨(Number.int n).toDouble, Number.isNaN_toDouble rfl⟩

def toNumber (a : Reading) : Number := .float a.value

/-- Where a sum is undefined, both instants are infinite, and the length of time outweighs.  Where a
difference is undefined, no time lies between the two. -/
instance : Instant Reading where
  before a b := a.toNumber.lt b.toNumber
  notAfter a b := a.toNumber.le b.toNumber
  plus a b := ofDouble (a.value + b.value) b
  minus a b := ofDouble (a.value - b.value) (ofWhole 0)
  ofSeconds := ofWhole
  isUnknown _ := false
  fits _ := true
  toDuration a := Instant.toDuration a.toNumber
  toValue a := Instant.toValue a.toNumber

def delayOf (x : Float) : Except PowerFailure Reading :=
  if h : x.isNaN = false then .ok ⟨x, h⟩ else .error .overflow

instance : Delay Reading where
  power a n := powerOfDouble a.value n >>= delayOf
  times a b := delayOf (a.value * b.value)
  before a b := a.toNumber.lt b.toNumber

/-! ## Order -/

noncomputable def place (a : Reading) : EReal := a.toNumber.place

variable {a b : Reading}

theorem before_iff : Instant.before a b = true ↔ a.place < b.place :=
  Number.lt_iff_place a.known b.known

theorem notAfter_iff : Instant.notAfter a b = true ↔ a.place ≤ b.place :=
  Number.le_iff_place a.known b.known

theorem ofDouble_of_known {x : Float} (h : x.isNaN = false) (o : Reading) :
    ofDouble x o = ⟨x, h⟩ := dif_pos h

theorem ofDouble_of_unknown {x : Float} (h : x.isNaN = true) (o : Reading) : ofDouble x o = o :=
  dif_neg (by rw [h]; decide)

theorem place_zero : (ofWhole 0).place = 0 := by
  have hzero : (Number.float (Number.int 0).toDouble).value? = some 0 := by
    show (Binary64.decode (Number.int 0).toDouble).value? = _
    rw [show Binary64.decode (Number.int 0).toDouble = .finite ⟨false, 0, -1074⟩ by decide]
    exact congrArg some (Dyadic.value_zero _ _)
  refine (Number.place_of_value? hzero).trans ?_
  rw [Rat.cast_zero, EReal.coe_zero]

/-- A length of time that is infinite outweighs every instant. -/
theorem place_plus_infinite (a : Reading) {n : Reading} (hn : n.value.isFinite = false) :
    (Instant.plus a n).place = n.place := by
  show (ofDouble (a.value + n.value) n).place = _
  cases hsum : (a.value + n.value).isNaN with
  | true => rw [ofDouble_of_unknown hsum]
  | false =>
    rw [ofDouble_of_known hsum]
    exact Number.place_add_infinite hn hsum

theorem place_plus_le (h : a.place ≤ b.place) (n : Reading) :
    (Instant.plus a n).place ≤ (Instant.plus b n).place := by
  cases hn : n.value.isFinite with
  | false => rw [place_plus_infinite a hn, place_plus_infinite b hn]
  | true =>
    have hsum (c : Reading) : (c.value + n.value).isNaN = false := Double.isNaN_add c.known hn
    show (ofDouble (a.value + n.value) n).place ≤ (ofDouble (b.value + n.value) n).place
    rw [ofDouble_of_known (hsum a), ofDouble_of_known (hsum b)]
    exact Number.place_add_le (hsum a) (hsum b) h

theorem place_minus_nonneg (h : b.place ≤ a.place) : 0 ≤ (Instant.minus a b).place := by
  show 0 ≤ (ofDouble (a.value - b.value) (ofWhole 0)).place
  cases hdiff : (a.value - b.value).isNaN with
  | true => rw [ofDouble_of_unknown hdiff, place_zero]
  | false =>
    rw [ofDouble_of_known hdiff]
    exact Number.place_sub_nonneg hdiff h

instance : Preorder Reading where
  le a b := Instant.notAfter a b = true
  lt a b := Instant.before a b = true
  le_refl _ := notAfter_iff.2 le_rfl
  le_trans _ _ _ hab hbc := notAfter_iff.2 ((notAfter_iff.1 hab).trans (notAfter_iff.1 hbc))
  lt_iff_le_not_ge a b := by rw [before_iff, notAfter_iff, notAfter_iff, lt_iff_le_not_ge]

instance : MonotoneInstant Reading where
  total a b := by
    refine (le_total a.place b.place).imp ?_ ?_ <;> exact notAfter_iff.2
  before_iff _ _ := Iff.rfl
  notAfter_iff _ _ := Iff.rfl
  isUnknown_eq _ := rfl
  isNegative_minus {a b} h := by
    refine Bool.eq_false_iff.2 fun hneg => ?_
    have hlt : (Instant.minus a b).place < (ofWhole 0).place := before_iff.1 hneg
    rw [place_zero] at hlt
    exact not_lt.2 (place_minus_nonneg (notAfter_iff.1 h)) hlt
  fits_ofSeconds _ := rfl
  plus_le_plus h n := notAfter_iff.2 (place_plus_le (notAfter_iff.1 h) n)

/-! ## The running store -/

theorem toNumber_plus (a : Reading) {n : Int} (h : fitsWord n = true) :
    Instant.plus a.toNumber (.int n) = (Instant.plus a (ofWhole n)).toNumber := by
  have hfinite : (Number.int n).toDouble.isFinite = true := Number.isFinite_toDouble h
  have hsum : (a.value + (Number.int n).toDouble).isNaN = false := Double.isNaN_add a.known hfinite
  show (Number.float a.value).add (.int n) =
    (ofDouble (a.value + (Number.int n).toDouble) _).toNumber
  rw [Number.add_float, ofDouble_of_known hsum]
  rfl

theorem toNumber_minus (a : Reading) {b : Reading} (h : b.value.isFinite = true) :
    Instant.minus a.toNumber b.toNumber = (Instant.minus a b).toNumber := by
  show Number.float (a.value - b.value) = (ofDouble (a.value - b.value) _).toNumber
  rw [ofDouble_of_known (Number.isNaN_sub a.known h)]
  rfl

theorem isNegative_toNumber (a : Reading) :
    Instant.isNegative a.toNumber = Instant.isNegative a := by
  have hzero : (Number.int 0).place = (ofWhole 0).place := by
    rw [place_zero]
    show (((0 : Int) : ℝ) : EReal) = 0
    rw [Int.cast_zero, EReal.coe_zero]
  rw [Bool.eq_iff_iff]
  show Number.lt _ (.int 0) = true ↔ Instant.before a (ofWhole 0) = true
  rw [before_iff, ← hzero]
  exact Number.lt_iff_place a.known rfl

end Reading

/-- A lifetime as a table keeps it, in whole seconds. -/
structure KeptLifetime where
  updatedAt : Reading
  lastAccessed : Option Reading
  seconds : Option Int
  policy : Policy
  fits : seconds.all fitsWord = true

namespace KeptLifetime

open Reading

def readings (l : KeptLifetime) : Lifetime Reading :=
  ⟨l.updatedAt, l.lastAccessed, l.seconds.map Instant.ofSeconds, l.policy⟩

def numbers (l : KeptLifetime) : Lifetime Number :=
  ⟨l.updatedAt.toNumber, l.lastAccessed.map toNumber, l.seconds.map Instant.ofSeconds, l.policy⟩

variable (l : KeptLifetime)

theorem start_toNumber : l.numbers.start = l.readings.start.toNumber := by
  unfold Lifetime.start readings numbers
  cases l.policy with
  | absolute => rfl
  | sliding => cases l.lastAccessed <;> rfl

theorem deadline_toNumber : l.numbers.deadline = l.readings.deadline.map toNumber := by
  have hstart := l.start_toNumber
  have hfits := l.fits
  unfold Lifetime.deadline
  rw [hstart]
  show (l.seconds.map Instant.ofSeconds).map (Instant.plus l.readings.start.toNumber) =
    ((l.seconds.map Instant.ofSeconds).map (Instant.plus l.readings.start)).map toNumber
  cases hseconds : l.seconds with
  | none => rfl
  | some n =>
    rw [hseconds] at hfits
    exact congrArg some (toNumber_plus _ hfits)

/-- An entry of the running store has expired if it has over readings. -/
theorem isExpired_toNumber (now : Reading) :
    l.numbers.isExpired now.toNumber = l.readings.isExpired now := by
  unfold Lifetime.isExpired
  rw [deadline_toNumber]
  cases l.readings.deadline <;> rfl

/-- So much time is left of it as over readings. -/
theorem remaining_toNumber {now : Reading} (h : now.value.isFinite = true) :
    l.numbers.remaining now.toNumber = (l.readings.remaining now).map toNumber := by
  unfold Lifetime.remaining
  rw [deadline_toNumber]
  cases l.readings.deadline with
  | none => rfl
  | some d =>
    simp only [Option.map_some, Option.bind_some]
    rw [toNumber_minus d h, isNegative_toNumber]
    split <;> rfl

theorem remainingDuration_toNumber {now : Reading} (h : now.value.isFinite = true) :
    l.numbers.remainingDuration now.toNumber = l.readings.remainingDuration now := by
  unfold Lifetime.remainingDuration
  rw [l.remaining_toNumber h]
  cases l.readings.remaining now <;> rfl

end KeptLifetime

end ExpiringStore
