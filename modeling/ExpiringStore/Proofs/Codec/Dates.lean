import ExpiringStore.Codec.Scalar
import Mathlib.Algebra.Group.Nat.Defs

/-!
# Dates that are written and read

A date of the calendar is read back from its text, and the text is no timestamp.

    digits? w (padded n w ++ rest)   =   n and rest,    n < 10 ^ w               (digits?_padded)
    readDate? d.text   =   d                                                     (readDate?_text)
-/

namespace ExpiringStore

/-! ## Padded numbers -/

namespace Duration

theorem toList_padded (n width : Nat) : (padded n width).toList =
    List.replicate (width - (Nat.toDigits 10 n).length) '0' ++ Nat.toDigits 10 n :=
  String.toList_ofList

theorem length_padded {n width : Nat} (fits : n < 10 ^ width) (any : 0 < width) :
    (padded n width).toList.length = width := by
  have hlength : (Nat.toDigits 10 n).length ≤ width :=
    (Nat.length_toDigits_le_iff (by decide) any).2 fits
  rw [toList_padded, List.length_append, List.length_replicate]
  omega

theorem isDigit_padded (n width : Nat) : ∀ c ∈ (padded n width).toList, c.isDigit = true := by
  intro c mem
  rw [toList_padded] at mem
  rcases List.mem_append.1 mem with mem | mem
  · obtain rfl := List.eq_of_mem_replicate mem
    rfl
  · exact Nat.isDigit_of_mem_toDigits (by decide) (by decide) mem

theorem value_padded (n width : Nat) :
    (padded n width).toList.foldl (fun v c => v * 10 + (c.toNat - 48)) 0 = n := by
  have hzeros (k : Nat) :
      (List.replicate k '0').foldl (fun v c => v * 10 + (c.toNat - 48)) 0 = 0 := by
    induction k with
    | zero => rfl
    | succ k ih => exact ih
  have hdigits := Nat.ofDigitChars_toDigits (b := 10) (n := n) (by decide) (by decide)
  rw [Nat.ofDigitChars_eq_foldl] at hdigits
  rw [toList_padded, List.foldl_append, hzeros]
  simpa only [Nat.mul_comm 10, Char.reduceToNat] using hdigits

end Duration

/-! ## Dates -/

namespace Calendar

open Duration (padded)

/-- A padded number is read back, and what follows is left. -/
theorem digits?_padded {n width : Nat} (fits : n < 10 ^ width) (any : 0 < width)
    (rest : List Char) : digits? width ((padded n width).toList ++ rest) = some (n, rest) := by
  have hlength := Duration.length_padded fits any
  have htake : ((padded n width).toList ++ rest).take width = (padded n width).toList := by
    rw [List.take_append_of_le_length (Nat.le_of_eq hlength.symm),
      List.take_of_length_le (Nat.le_of_eq hlength)]
  have hdrop : ((padded n width).toList ++ rest).drop width = rest :=
    List.drop_left' hlength
  unfold digits?
  simp only [htake, hdrop, hlength, Duration.value_padded, beq_self_eq_true, Bool.true_and]
  rw [if_pos (List.all_eq_true.2 (Duration.isDigit_padded n width))]

end Calendar

namespace Date

open Duration (padded)

/-- Does the calendar have the date? -/
def IsValid (d : Date) : Prop := ofParts? d.year d.month d.day = some d

instance (d : Date) : Decidable d.IsValid := inferInstanceAs (Decidable (_ = _))

theorem IsValid.bounds {d : Date} (valid : d.IsValid) :
    d.year < 10 ^ 4 ∧ d.month < 10 ^ 2 ∧ d.day < 10 ^ 2 := by
  unfold IsValid ofParts? at valid
  split at valid
  · next h =>
    simp only [Bool.and_eq_true, decide_eq_true_eq] at h
    have hmonth : daysInMonth d.year d.month ≤ 31 := by
      unfold daysInMonth
      repeat' split
      all_goals omega
    omega
  · cases valid

theorem toList_text (d : Date) : d.text.toList = (padded d.year 4).toList ++
    '-' :: ((padded d.month 2).toList ++ '-' :: ((padded d.day 2).toList ++ [])) := by
  simp [text, String.toList_append]

theorem ofText?_text {d : Date} (valid : d.IsValid) : ofText? d.text = some d := by
  obtain ⟨hyear, hmonth, hday⟩ := valid.bounds
  have hread : Calendar.date? d.text.toList = some (d, []) := by
    simp only [toList_text, Calendar.date?, Calendar.digits?_padded hyear (by decide),
      Calendar.digits?_padded hmonth (by decide), Calendar.digits?_padded hday (by decide),
      Calendar.expect?, bind, Option.bind, beq_self_eq_true, if_true]
    rw [valid]
    rfl
  unfold ofText?
  rw [hread]

/-- The text of a date is no timestamp: its first minus sign ends the digits. -/
theorem timestamp?_text {d : Date} (valid : d.IsValid) :
    Scalar.timestamp? d.text.toList = none := by
  obtain ⟨hyear, -⟩ := valid.bounds
  have hlength := Duration.length_padded hyear (by decide)
  have hdigits := Duration.isDigit_padded d.year 4
  rw [toList_text]
  generalize (padded d.year 4).toList = year at hlength hdigits
  generalize (padded d.month 2).toList ++ '-' :: _ = rest
  have hsign (sign : Char) (other : sign.isDigit = false) :
      ((year ++ '-' :: rest).head? == some sign) = false := by
    cases year with
    | nil => cases hlength
    | cons c year =>
      rw [beq_eq_false_iff_ne]
      rintro heq
      obtain rfl := Option.some.inj heq
      cases other.symm.trans (hdigits _ List.mem_cons_self)
  have hwhole : (year ++ '-' :: rest).takeWhile Char.isDigit = year := by
    rw [List.takeWhile_append_of_pos hdigits, List.takeWhile_cons_of_neg (by decide),
      List.append_nil]
  unfold Scalar.timestamp?
  simp only [hsign '-' rfl, hsign '+' rfl, hwhole, List.drop_left, Bool.or_false,
    Bool.false_eq_true, if_false]
  -- What follows the digits is neither nothing nor a point.
  exact if_neg (by simp)

theorem readDate?_text {d : Date} (valid : d.IsValid) : Scalar.readDate? d.text = some d := by
  unfold Scalar.readDate?
  rw [timestamp?_text valid, ofText?_text valid]
  rfl

theorem date?_text {d : Date} (valid : d.IsValid) : Scalar.date? (.str d.text) = some d := by
  have htext (t : String) : Scalar.date? (.str t) = Scalar.readDate? t := rfl
  rw [htext, readDate?_text valid]

end Date

end ExpiringStore
