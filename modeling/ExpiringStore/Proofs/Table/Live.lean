import ExpiringStore.Proofs.Table.Reply
import ExpiringStore.Proofs.Pattern.Front

/-!
# The live part of a table

The rows of a table that have not expired.  A transaction at an instant does to the live part what
it would do if the other rows were not there, as long as it does not touch one of them; and what it
answers of live rows it answers of the live part.

    find? (live t now) k   =   find? t k, if it has not expired
    commit t a = .ok (r, t')   →   Leads now a (live t now) (live t' now)          (leads_commit)
-/

namespace ExpiringStore

variable {τ : Type}

namespace Row

variable [Instant τ] {row : Row τ} {now : τ}

theorem filter_of_dead (h : row.isExpired now = true) :
    (some row).filter (fun row => !row.isExpired now) = none := by simp [h]

theorem filter_of_live (h : row.isExpired now = false) :
    (some row).filter (fun row => !row.isExpired now) = some row := by simp [h]

end Row

namespace Table

section
variable [Instant τ]

/-- The rows that have not expired. -/
def live (t : Table τ) (now : τ) : Table τ := t.filter fun _ row => !row.isExpired now

@[simp] theorem find?_live (t : Table τ) (now : τ) (key : String) :
    (t.live now).find? key = (t.find? key).filter fun row => !row.isExpired now :=
  find?_filter ..

theorem find?_live_eq_some {t : Table τ} {now : τ} {key : String} {row : Row τ} :
    (t.live now).find? key = some row ↔ t.find? key = some row ∧ row.isExpired now = false := by
  rw [find?_live, Option.filter_eq_some_iff, Bool.not_eq_true']

theorem isSome_find?_live (t : Table τ) (now : τ) (key : String) :
    ((t.live now).find? key).isSome = (t.find? key).any fun row => !row.isExpired now := by
  rw [find?_live]
  cases t.find? key with
  | none => rfl
  | some row => cases hd : row.isExpired now <;> simp [hd]

/-- Of the live part, those rows are selected that are live. -/
theorem select_live (t : Table τ) (now : τ) (condition : String → Row τ → Bool) :
    (t.live now).select condition =
      t.select fun k row => condition k row && !row.isExpired now := by
  unfold select live filter
  rw [List.filter_filter]

end

/-- The live part of the live part, at a later instant, is the live part at that instant. -/
theorem live_live [OrderedInstant τ] (t : Table τ) {now later : τ} (hle : now ≤ later) :
    (t.live now).live later = t.live later := by
  refine eq_of_find? fun key => ?_
  rw [find?_live, find?_live, find?_live]
  cases t.find? key with
  | none => rfl
  | some row =>
    cases hd : row.isExpired now with
    | true =>
      rw [Row.filter_of_dead hd, Row.filter_of_dead (Row.isExpired_mono hle hd)]
      rfl
    | false => rw [Row.filter_of_live hd]

/-- Tables that agree on what is live agree on what is live later. -/
theorem live_congr [OrderedInstant τ] {t t' : Table τ} {now later : τ}
    (h : t.live now = t'.live now) (hle : now ≤ later) : t.live later = t'.live later := by
  rw [← live_live t hle, h, live_live t' hle]

end Table

namespace Transaction

variable [OrderedInstant τ] {t t' : Table τ} {now : τ}

/-- The instant at which a transaction tells live rows from expired ones, if it does. -/
def instant? : Transaction τ → Option τ
  | .isLive _ now | .liveKeys _ now | .countLive now | .writeIfAbsent _ _ now
  | .extend _ _ _ now | .removeExpiredKey _ now | .removeExpired now => some now
  | _ => none

/-- A transaction is at an instant, and does not touch what has expired by then. -/
structure IsAt (now : τ) (t : Table τ) (a : Transaction τ) : Prop where
  instant (n : τ) (h : a.instant? = some n) : n = now
  touched (key : String) (n : τ) (h : a = .touch key n) (row : Row τ)
    (found : t.find? key = some row) : row.isExpired now = false

/-- What a transaction at an instant does to the live part of a table. -/
def Leads (now : τ) (a : Transaction τ) (l l' : Table τ) : Prop :=
  ∀ key, l'.find? key = (a.onRow key (l.find? key)).filter fun row => !row.isExpired now

omit [OrderedInstant τ] in
theorem Leads.unique [OrderedInstant τ] {a : Transaction τ} {l l₁ l₂ : Table τ}
    (h₁ : Leads now a l l₁) (h₂ : Leads now a l l₂) : l₁ = l₂ :=
  Table.eq_of_find? fun key => (h₁ key).trans (h₂ key).symm

/-- An expired row is as good as none. -/
theorem onRow_live {a : Transaction τ} (hat : a.IsAt now t) (key : String) :
    (a.onRow key (t.find? key)).filter (fun row => !row.isExpired now) =
      (a.onRow key ((t.find? key).filter fun row => !row.isExpired now)).filter
        fun row => !row.isExpired now := by
  cases hf : t.find? key with
  | none => rfl
  | some row =>
    cases hd : row.isExpired now with
    | false => rw [Row.filter_of_live hd]
    | true =>
      rw [Row.filter_of_dead hd]
      cases a with
      | write rows =>
        show ((lastRow key rows).or (some row)).filter _ = ((lastRow key rows).or none).filter _
        cases lastRow key rows with
        | none => exact Row.filter_of_dead hd
        | some new => rfl
      | writeIfAbsent k new n =>
        obtain rfl := hat.instant n rfl
        show Option.filter _ (if key = k ∧ (some row).all (·.isExpired n) then some new
          else some row) = Option.filter _
            (if key = k ∧ (none : Option (Row τ)).all (·.isExpired n) then
          some new else none)
        by_cases hk : key = k
        · simp [hk, hd]
        · simp [hk, hd]
      | touch k n =>
        -- The row is not touched, for then it would be live.
        have hne : key ≠ k := by
          rintro rfl
          cases hd.symm.trans (hat.touched key n rfl row hf)
        show Option.filter _ (some (if key = k then _ else row)) = none
        rw [if_neg hne]
        exact Row.filter_of_dead hd
      | extend k ttl policy n =>
        obtain rfl := hat.instant n rfl
        show Option.filter _ (some (if key = k ∧ row.isExpired n = false then _ else row)) = none
        rw [if_neg (by simp [hd])]
        exact Row.filter_of_dead hd
      | remove | removeMany | removeMatching | removeExpired | removeExpiredKey =>
        simp [onRow, hd]
      | removeEvery => rfl
      | probe | fetch | fetchMany | isLive | liveKeys | countLive => exact Row.filter_of_dead hd

/-- What a transaction at an instant does to a table it does to the live part of it. -/
theorem leads_commit {a : Transaction τ} (hat : a.IsAt now t) {r : a.Reply}
    (h : commit t a = .ok (r, t')) : Leads now a (t.live now) (t'.live now) := by
  intro key
  rw [Table.find?_live, find?_commit h, onRow_live hat, Table.find?_live]

/-- Removing what has expired leaves the live part as it is. -/
theorem live_of_sweep {a : Transaction τ} (gone : String → Bool)
    (hrow : ∀ key old, a.onRow key old = old.filter fun row => !(gone key && row.isExpired now))
    {r : a.Reply} (h : commit t a = .ok (r, t')) : t'.live now = t.live now := by
  refine Table.eq_of_find? fun key => ?_
  rw [Table.find?_live, Table.find?_live, find?_commit h, hrow]
  cases t.find? key with
  | none => rfl
  | some row =>
    cases hd : row.isExpired now with
    | false =>
      have hkept : (some row).filter (fun row => !(gone key && row.isExpired now)) = some row := by
        simp [hd]
      rw [hkept]
    | true =>
      rw [Row.filter_of_dead hd]
      cases gone key <;> simp [hd]

def isTouch : Transaction τ → Bool
  | .touch _ _ => true
  | _ => false

/-- A transaction that tells no rows by an instant is at any. -/
theorem isAt_of_timeless {a : Transaction τ} (timeless : a.instant? = none)
    (untouching : a.isTouch = false) : a.IsAt now t where
  instant n h := by cases timeless.symm.trans h
  touched key n h := by
    rw [h] at untouching
    cases untouching

/-- A transaction that tells rows by an instant is at that one. -/
theorem isAt_of_instant {a : Transaction τ} (timed : a.instant? = some now) : a.IsAt now t where
  instant n h := Option.some.inj (h.symm.trans timed)
  touched key n h := by
    rw [h] at timed
    cases timed

theorem isAt_touch {key : String} {row : Row τ} (found : t.find? key = some row)
    (live : row.isExpired now = false) : (touch key now).IsAt now t where
  instant n h := by cases h
  touched key' n h row' found' := by
    obtain ⟨rfl, rfl⟩ := touch.inj h
    obtain rfl := Option.some.inj (found.symm.trans found')
    exact live

/-- What a transaction would leave as it is, it need not be asked to. -/
theorem leads_of_vain {a : Transaction τ} (vain : ∀ key old, a.onRow key old = old) :
    Leads now a (t.live now) (t.live now) := by
  intro key
  rw [vain, Table.find?_live, Option.filter_filter]
  congr 1
  funext row
  exact (Bool.and_self _).symm

/-! ## Patterns that are too long -/

omit [OrderedInstant τ] in
/-- A pattern that can be matched overtaxes no key. -/
theorem untaxed_of_matchable {pattern key : String} {row : Row τ} {u : Unit}
    (h : matchable t pattern = .ok u) (found : t.find? key = some row) :
    Like.overtaxes pattern key = false := by
  unfold matchable at h
  split at h
  · next hempty =>
    have hrow := List.filter_eq_nil_iff.1 (List.isEmpty_iff.1 hempty) (key, row)
      ((Table.mem_rows_iff t key row).2 found)
    exact eq_false_of_ne_true hrow
  · cases h

theorem untaxed_of_liveKeys {pattern key : String} {row : Row τ} {keys : List String}
    (h : commit t (.liveKeys pattern now) = .ok (keys, t')) (found : t.find? key = some row) :
    Like.overtaxes pattern key = false := by
  have hkeys : (matchable t pattern).map _ = .ok keys := (reply_reading rfl h).1
  cases hm : matchable t pattern with
  | error f =>
    rw [hm] at hkeys
    cases hkeys
  | ok u => exact untaxed_of_matchable hm found

/-- No key is removed for a pattern that is too long. -/
theorem commit_removeMatching_long {pattern : String}
    (long : Like.longest < pattern.utf8ByteSize) {removed : List String}
    (h : commit t (.removeMatching pattern) = .ok (removed, t')) : t' = t := by
  refine Table.eq_of_find? fun key => ?_
  rw [find?_commit h]
  show (t.find? key).filter (fun _ => !Like.selects pattern key) = t.find? key
  cases hf : t.find? key with
  | none => rfl
  | some row =>
    have hselects : Like.selects pattern key = false := by
      refine eq_false_of_ne_true fun hs => ?_
      obtain ⟨b, hb, -⟩ := commit_ok h
      simp only [firstOn] at hb
      cases hm : matchable t pattern with
      | error f =>
        rw [hm] at hb
        cases hb
      | ok u => cases (untaxed_of_matchable hm hf).symm.trans (Like.overtaxes_of_selects hs long)
    simp [hselects]

/-! ## Replies -/

theorem reply_countLive {r : Nat} (h : commit t (.countLive now) = .ok (r, t')) :
    r = (t.live now).size := by
  rw [← Except.ok.inj (reply_reading rfl h).1]
  simp only [Condition.live_holds]
  rfl

theorem reply_removeExpired {r : Nat} (h : commit t (.removeExpired now) = .ok (r, t')) :
    r = (t.select fun _ row => row.isExpired now).length := by
  obtain ⟨b, hb, -, ha⟩ := commit_ok h
  obtain rfl := Except.ok.inj hb
  rw [← Except.ok.inj ha]
  simp only [keysWhere, Condition.expired_holds, List.length_map]

/-- Keys are listed of what is live. -/
theorem reply_liveKeys_live {pattern : String} {r : List String}
    (h : commit t (.liveKeys pattern now) = .ok (r, t')) :
    r = keysWhere (t.live now) fun k _ => Like.selects pattern k := by
  rw [reply_liveKeys h]
  unfold keysWhere
  rw [Table.select_live]

end Transaction

end ExpiringStore
