import ExpiringStore.Proofs.Lifetime.Ordered
import ExpiringStore.Proofs.Table.Find

/-!
# Commits

A transaction that nothing interrupts commits as a whole.  What it does to a table is what it does
to the row of each key, and `onRow` says what that is, transaction by transaction.

    commit t a = .ok (r, t')   →   find? t' k = onRow a k (find? t k)      (find?_commit)
-/

namespace ExpiringStore.Transaction

/-- Carries a transaction out with nothing happening between its statements. -/
def commit {τ : Type} [Instant τ] (t : Table τ) (a : Transaction τ) :
    Except Failure (a.Reply × Table τ) :=
  run .ok t a

/-- The last row of a key among rows that are written one after the other. -/
def lastRow {τ : Type} (key : String) : List (String × Row τ) → Option (Row τ)
  | [] => none
  | (k, r) :: rest => (lastRow key rest).or (if k = key then some r else none)

def onRow {τ : Type} [Instant τ] (key : String) : Transaction τ → Option (Row τ) → Option (Row τ)
  | .write rows, old => (lastRow key rows).or old
  | .writeIfAbsent k row now, old => if key = k ∧ old.all (·.isExpired now) then some row else old
  | .touch k now, old => old.map fun r => if key = k then { r with lastAccessed := some now } else r
  | .extend k ttl policy now, old =>
    old.map fun r => if key = k ∧ r.isExpired now = false then renewed r ttl policy now else r
  | .remove k, old => old.filter fun _ => key != k
  | .removeExpiredKey k now, old => old.filter fun r => !(key == k && r.isExpired now)
  | .removeMany keys, old => old.filter fun _ => !keys.contains key
  | .removeMatching pattern, old => old.filter fun _ => !Like.selects pattern key
  | .removeEvery, _ => none
  | .removeExpired now, old => old.filter fun r => !r.isExpired now
  | _, old => old

theorem reading_ok {τ ρ : Type} {t : Table τ} {x : Except Failure ρ} {b : Begun τ ρ}
    (h : reading t x = .ok b) : ∃ r, x = .ok r ∧ b = ⟨t, fun _ => .ok r⟩ := by
  cases x with
  | error f => cases h
  | ok r => exact ⟨r, rfl, (Except.ok.inj h).symm⟩

theorem lastRow_eq {τ : Type} (key : String) (rows : List (String × Row τ)) :
    lastRow key rows = (rows.reverse.find? (·.1 == key)).map (·.2) := by
  induction rows with
  | nil => rfl
  | cons p rest ih =>
    obtain ⟨k, r⟩ := p
    rw [lastRow, ih, List.reverse_cons, List.find?_append]
    cases rest.reverse.find? (·.1 == key) with
    | some q => rfl
    | none =>
      by_cases hk : k = key
      · simp [hk]
      · simp [hk]

theorem readable_ok {τ : Type} {r r' : Row τ} (h : readable r = .ok r') : r' = r := by
  unfold readable at h
  split at h
  · cases h
  · exact (Except.ok.inj h).symm

section
variable {τ : Type} [Instant τ] {t t' : Table τ}

theorem commit_eq (t : Table τ) (a : Transaction τ) :
    commit t a = (firstOn t a).bind fun b => (b.answer b.table).map (·, b.table) := by
  unfold commit run
  cases firstOn t a with
  | error f => rfl
  | ok b =>
    show (b.answer b.table).bind _ = (b.answer b.table).map _
    cases b.answer b.table <;> rfl

/-- The table after a transaction is the table after its first statement. -/
theorem commit_ok {a : Transaction τ} {r : a.Reply} (h : commit t a = .ok (r, t')) :
    ∃ b, firstOn t a = .ok b ∧ b.table = t' ∧ b.answer t' = .ok r := by
  rw [commit_eq] at h
  cases hb : firstOn t a with
  | error f => rw [hb] at h; cases h
  | ok b =>
    rw [hb] at h
    replace h : (b.answer b.table).map (·, b.table) = .ok (r, t') := h
    cases ha : b.answer b.table with
    | error f => rw [ha] at h; cases h
    | ok r' =>
      rw [ha] at h
      obtain ⟨rfl, rfl⟩ := Prod.mk.inj (Except.ok.inj h)
      exact ⟨b, rfl, rfl, ha⟩

/-- An insertion that does not take place leaves the table as it is. -/
theorem eq_of_insertUnlessLive {key : String} {row : Row τ} {now : τ}
    (h : insertUnlessLive t key row now = .ok (false, t')) : t' = t := by
  unfold insertUnlessLive at h
  split at h
  · cases h
  · split at h
    · cases h
    · split at h
      · cases h
      · exact (Prod.mk.inj (Except.ok.inj h)).2.symm

end

variable {τ : Type} [OrderedInstant τ] {t t' : Table τ}

theorem constrained_ok {r r' : Row τ} (h : constrained r = .ok r') :
    r' = r ∧ r.ttl.all Instant.fits = true := by
  unfold constrained at h
  split at h
  · cases h
  · next hfit =>
    rw [if_neg (by simp)] at h
    obtain rfl := Except.ok.inj h
    refine ⟨?_, by simpa using hfit⟩
    obtain ⟨payload, updatedAt, ttl, policy, lastAccessed⟩ := r
    cases lastAccessed <;> simp

theorem find?_writeRows {rows : List (String × Row τ)} (h : writeRows t rows = .ok t')
    (key : String) : t'.find? key = (lastRow key rows).or (t.find? key) := by
  induction rows generalizing t with
  | nil =>
    obtain rfl := Except.ok.inj h
    rfl
  | cons p rest ih =>
    obtain ⟨k, r⟩ := p
    unfold writeRows at h
    split at h
    · cases h
    · next r' hr =>
      obtain ⟨rfl, -⟩ := constrained_ok hr
      rw [ih h, Table.find?_insert, lastRow]
      by_cases hk : k = key
      · subst hk
        simp
      · rw [if_neg (Ne.symm hk), if_neg hk, Option.or_none]

/-- A conditional insertion takes place where there is no row or an expired one. -/
theorem insertUnlessLive_ok {key : String} {row : Row τ} {now : τ} {b : Bool}
    (h : insertUnlessLive t key row now = .ok (b, t')) :
    b = (t.find? key).all (·.isExpired now) ∧ t' = if b then t.insert key row else t := by
  unfold insertUnlessLive at h
  split at h
  · cases h
  · next row' hr =>
    obtain ⟨rfl, -⟩ := constrained_ok hr
    cases hf : t.find? key with
    | none =>
      rw [hf] at h
      obtain ⟨rfl, rfl⟩ := Prod.mk.inj (Except.ok.inj h)
      simp
    | some old =>
      rw [hf] at h
      simp only [Condition.expired_holds] at h
      split at h
      · next he =>
        obtain ⟨rfl, rfl⟩ := Prod.mk.inj (Except.ok.inj h)
        simp [he]
      · next he =>
        obtain ⟨rfl, rfl⟩ := Prod.mk.inj (Except.ok.inj h)
        simp [he]

theorem find?_conditionalInsert {k : String} {row : Row τ} {now : τ} {b : Bool}
    (h : insertUnlessLive t k row now = .ok (b, t')) (key : String) :
    t'.find? key = (writeIfAbsent k row now).onRow key (t.find? key) := by
  obtain ⟨hb, ht⟩ := insertUnlessLive_ok h
  rw [ht]
  show _ = if key = k ∧ _ then _ else _
  by_cases hk : key = k
  · subst hk
    rw [← hb]
    cases b <;> simp
  · have hn : ¬ (key = k ∧ (t.find? key).all (·.isExpired now)) := fun h => hk h.1
    rw [if_neg hn]
    cases b with
    | true => exact Table.find?_insert_of_ne hk t row
    | false => rfl

theorem find?_extend {k : String} {ttl : Int} {policy : Policy} {now : τ} {b : Begun τ Bool}
    (h : firstOn t (.extend k ttl policy now) = .ok b) (key : String) :
    b.table.find? key = (extend k ttl policy now).onRow key (t.find? key) := by
  show _ = (t.find? key).map _
  simp only [firstOn, Condition.live_holds, Bool.not_not] at h
  split at h
  · cases h
  · split at h
    · next hf =>
      -- No row: nothing changes, and of the other keys nothing is asked.
      obtain rfl := Except.ok.inj h
      show t.find? key = _
      by_cases hk : key = k
      · simp [hk, hf]
      · simp [hk]
    · next r hf =>
      split at h
      · next he =>
        obtain rfl := Except.ok.inj h
        show t.find? key = _
        by_cases hk : key = k
        · simp [hk, hf, he]
        · simp [hk]
      · next he =>
        split at h
        · cases h
        · next r' hr =>
          obtain rfl := Except.ok.inj h
          obtain ⟨rfl, -⟩ := constrained_ok hr
          show (t.insert k _).find? key = _
          rw [Table.find?_insert]
          by_cases hk : key = k
          · simp [hk, hf, he]
          · simp [hk]

/-- What a commit does to the row of each key. -/
theorem find?_commit {a : Transaction τ} {r : a.Reply} (h : commit t a = .ok (r, t'))
    (key : String) : t'.find? key = a.onRow key (t.find? key) := by
  obtain ⟨b, hb, rfl, -⟩ := commit_ok h
  cases a with
  | probe | fetch | fetchMany | isLive | liveKeys | countLive =>
    obtain ⟨_, -, rfl⟩ := reading_ok hb
    rfl
  | write rows =>
    simp only [firstOn] at hb
    split at hb
    · cases hb
    · next t₁ hw =>
      obtain rfl := Except.ok.inj hb
      exact find?_writeRows hw key
  | writeIfAbsent k row now =>
    simp only [firstOn] at hb
    split at hb
    · cases hb
    · next hi =>
      obtain rfl := Except.ok.inj hb
      exact find?_conditionalInsert hi key
    · next hi =>
      obtain rfl := Except.ok.inj hb
      exact find?_conditionalInsert hi key
  | touch k now =>
    obtain rfl := Except.ok.inj hb
    show (t.map _).find? key = _
    rw [Table.find?_map]
    simp [onRow]
  | extend => exact find?_extend hb key
  | remove k =>
    obtain rfl := Except.ok.inj hb
    exact Table.find?_filter ..
  | removeExpiredKey k now =>
    obtain rfl := Except.ok.inj hb
    show (t.filter _).find? key = _
    rw [Table.find?_filter]
    simp only [onRow, Condition.expired_holds]
  | removeMany keys =>
    obtain rfl := Except.ok.inj hb
    exact Table.find?_filter ..
  | removeMatching pattern =>
    simp only [firstOn] at hb
    split at hb
    · cases hb
    · obtain rfl := Except.ok.inj hb
      exact Table.find?_filter ..
  | removeEvery =>
    obtain rfl := Except.ok.inj hb
    rfl
  | removeExpired now =>
    obtain rfl := Except.ok.inj hb
    show (t.filter _).find? key = _
    rw [Table.find?_filter]
    simp only [onRow, Condition.expired_holds]

/-- A conditional insertion inserts, or answers the live row that is there. -/
theorem commit_writeIfAbsent {k : String} {row : Row τ} {now : τ} {r : Insertion τ}
    (h : commit t (.writeIfAbsent k row now) = .ok (r, t')) :
    (r = .inserted ∧ (t.find? k).all (·.isExpired now) = true) ∨
      ∃ old, r = .present old ∧ t.find? k = some old ∧ old.isExpired now = false := by
  obtain ⟨b, hb, rfl, ha⟩ := commit_ok h
  simp only [firstOn] at hb
  split at hb
  · cases hb
  · next hi =>
    obtain ⟨hall, -⟩ := insertUnlessLive_ok hi
    obtain rfl := Except.ok.inj hb
    exact .inl ⟨(Except.ok.inj ha).symm, hall.symm⟩
  · next t₁ hi =>
    obtain ⟨hall, ht⟩ := insertUnlessLive_ok hi
    obtain rfl : t = t₁ := ht.symm
    obtain rfl := Except.ok.inj hb
    replace ha : liveRow t k now = .ok r := ha
    unfold liveRow at ha
    cases hf : t.find? k with
    | none =>
      rw [hf] at hall
      cases hall
    | some old =>
      -- The row that kept the insertion from taking place is live: the second statement finds it.
      have he : old.isExpired now = false := by rw [hf] at hall; exact hall.symm
      simp only [hf, Condition.live_holds, he, Bool.not_false, if_true] at ha
      cases hr : readable old with
      | error f => rw [hr] at ha; cases ha
      | ok old' =>
        obtain rfl := readable_ok hr
        rw [hr] at ha
        exact .inr ⟨_, (Except.ok.inj ha).symm, rfl, he⟩

/-! ## How a row goes, and how it came about -/

/-- Does a transaction remove the row of a key whether it has expired or not? -/
def removes (key : String) : Transaction τ → Bool
  | .remove k => key == k
  | .removeMany keys => keys.contains key
  | .removeMatching pattern => Like.selects pattern key
  | .removeEvery => true
  | _ => false

/-- A row goes if it is removed as such, or if it has expired and expired rows are removed. -/
theorem onRow_eq_none {a : Transaction τ} {key : String} {row : Row τ}
    (h : a.onRow key (some row) = none) : a.removes key = true ∨
      ∃ now, (a = .removeExpired now ∨ a = .removeExpiredKey key now) ∧
        row.isExpired now = true := by
  cases a with
  | remove k =>
    replace h : (some row).filter (fun _ => key != k) = none := h
    exact .inl (by simpa [removes] using h)
  | removeMany keys =>
    replace h : (some row).filter (fun _ => !keys.contains key) = none := h
    exact .inl (by simpa [removes] using h)
  | removeMatching pattern =>
    replace h : (some row).filter (fun _ => !Like.selects pattern key) = none := h
    exact .inl (by simpa [removes] using h)
  | removeEvery => exact .inl rfl
  | removeExpired now =>
    replace h : (some row).filter (fun r => !r.isExpired now) = none := h
    exact .inr ⟨now, .inl rfl, by simpa using h⟩
  | removeExpiredKey k now =>
    replace h : (some row).filter (fun r => !(key == k && r.isExpired now)) = none := h
    obtain ⟨rfl, he⟩ : key = k ∧ row.isExpired now = true := by simpa using h
    exact .inr ⟨now, .inr rfl, he⟩
  | write rows =>
    replace h : (lastRow key rows).or (some row) = none := h
    simp at h
  | writeIfAbsent k new now =>
    replace h : (if key = k ∧ _ then some new else some row) = none := h
    split at h <;> cases h
  | _ => cases h

/-- How a transaction makes the row of a key from what was there. -/
inductive Gives (key : String) : Transaction τ → Option (Row τ) → Row τ → Prop
  | same (a : Transaction τ) (row : Row τ) : Gives key a (some row) row
  | written {rows : List (String × Row τ)} {row : Row τ} (old : Option (Row τ))
      (last : lastRow key rows = some row) : Gives key (.write rows) old row
  | inserted {row : Row τ} {now : τ} {old : Option (Row τ)}
      (absent : old.all (·.isExpired now) = true) : Gives key (.writeIfAbsent key row now) old row
  | touched (row : Row τ) (now : τ) :
      Gives key (.touch key now) (some row) { row with lastAccessed := some now }
  | extended {row : Row τ} (ttl : Int) (policy : Policy) {now : τ}
      (live : row.isExpired now = false) :
      Gives key (.extend key ttl policy now) (some row) (renewed row ttl policy now)

theorem gives_of_onRow {a : Transaction τ} {key : String} {old : Option (Row τ)} {row : Row τ}
    (h : a.onRow key old = some row) : a.Gives key old row := by
  cases a with
  | write rows =>
    rcases Option.or_eq_some_iff.1 h with h | ⟨-, rfl⟩
    · exact .written old h
    · exact .same _ row
  | writeIfAbsent k new now =>
    replace h : (if key = k ∧ old.all (·.isExpired now) then some new else old) = some row := h
    split at h
    · next hk =>
      obtain ⟨rfl, absent⟩ := hk
      obtain rfl := Option.some.inj h
      exact .inserted absent
    · subst h
      exact .same _ row
  | touch k now =>
    obtain ⟨r, rfl, hr⟩ := Option.map_eq_some_iff.1 h
    split at hr
    · next hk =>
      subst hk hr
      exact .touched r now
    · subst hr
      exact .same _ r
  | extend k ttl policy now =>
    obtain ⟨r, rfl, hr⟩ := Option.map_eq_some_iff.1 h
    split at hr
    · next hk =>
      obtain ⟨rfl, live⟩ := hk
      subst hr
      exact .extended ttl policy live
    · subst hr
      exact .same _ r
  | remove | removeExpiredKey | removeMany | removeMatching | removeExpired =>
    obtain ⟨rfl, -⟩ := Option.filter_eq_some_iff.1 h
    exact .same _ row
  | removeEvery => cases h
  | probe | fetch | fetchMany | isLive | liveKeys | countLive =>
    obtain rfl : old = some row := h
    exact .same _ row

end ExpiringStore.Transaction
