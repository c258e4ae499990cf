import ExpiringStore.Proofs.Table.Commit

/-!
# Replies

What a committed transaction answers, read off the table that it found.

    fetch k          the row of k
    isLive k now     whether the row of k has not expired
    extend k … now   whether there was a row of k that had not expired
-/

namespace ExpiringStore.Transaction

theorem allReadable_ok {τ : Type} {rows rows' : List (String × Row τ)}
    (h : allReadable rows = .ok rows') : rows' = rows := by
  induction rows generalizing rows' with
  | nil => exact (Except.ok.inj h).symm
  | cons p rest ih =>
    obtain ⟨k, row⟩ := p
    unfold allReadable at h
    split at h
    · cases h
    · next row' hrow =>
      obtain rfl := readable_ok hrow
      cases hrest : allReadable rest with
      | error f => rw [hrest] at h; cases h
      | ok rest' =>
        rw [hrest] at h
        obtain rfl := ih hrest
        exact (Except.ok.inj h).symm

section
variable {τ : Type} [Instant τ] {t t' : Table τ}

/-- A transaction whose only statement reads answers what that statement finds. -/
theorem reply_reading {a : Transaction τ} {x : Except Failure a.Reply}
    (ha : firstOn t a = reading t x) {r : a.Reply} (h : commit t a = .ok (r, t')) :
    x = .ok r ∧ t' = t := by
  obtain ⟨b, hb, rfl, hanswer⟩ := commit_ok h
  rw [ha] at hb
  obtain ⟨r', rfl, rfl⟩ := reading_ok hb
  exact ⟨hanswer, rfl⟩

theorem reply_fetch {k : String} {r : Option (Row τ)} (h : commit t (.fetch k) = .ok (r, t')) :
    r = t.find? k := by
  have hr := (reply_reading rfl h).1
  cases hf : t.find? k with
  | none =>
    rw [hf] at hr
    exact (Except.ok.inj hr).symm
  | some row =>
    rw [hf] at hr
    replace hr : (readable row).map some = .ok r := hr
    cases hrow : readable row with
    | error f => rw [hrow] at hr; cases hr
    | ok row' =>
      obtain rfl := readable_ok hrow
      rw [hrow] at hr
      exact (Except.ok.inj hr).symm

theorem reply_fetchMany {ks : List String} {r : List (String × Row τ)}
    (h : commit t (.fetchMany ks) = .ok (r, t')) : r = t.select fun k _ => ks.contains k :=
  allReadable_ok (reply_reading rfl h).1

end

variable {τ : Type} [OrderedInstant τ] {t t' : Table τ}

theorem reply_isLive {k : String} {now : τ} {r : Bool}
    (h : commit t (.isLive k now) = .ok (r, t')) :
    r = (t.find? k).any fun row => !row.isExpired now := by
  rw [← Except.ok.inj (reply_reading rfl h).1]
  cases t.find? k with
  | none => rfl
  | some row => exact Condition.live_holds row now

theorem reply_liveKeys {pattern : String} {now : τ} {r : List String}
    (h : commit t (.liveKeys pattern now) = .ok (r, t')) :
    r = keysWhere t fun k row => Like.selects pattern k && !row.isExpired now := by
  have hr : (matchable t pattern).map _ = .ok r := (reply_reading rfl h).1
  cases hm : matchable t pattern with
  | error f => rw [hm] at hr; cases hr
  | ok u =>
    rw [hm] at hr
    simpa using (Except.ok.inj hr).symm

theorem reply_extend {k : String} {ttl : Int} {policy : Policy} {now : τ} {r : Bool}
    (h : commit t (.extend k ttl policy now) = .ok (r, t')) :
    r = (t.find? k).any fun row => !row.isExpired now := by
  obtain ⟨b, hb, -, ha⟩ := commit_ok h
  simp only [firstOn, Condition.live_holds, Bool.not_not] at hb
  split at hb
  · cases hb
  · split at hb
    · next hf =>
      obtain rfl := Except.ok.inj hb
      rw [hf]
      exact (Except.ok.inj ha).symm
    · next row hf =>
      rw [hf]
      split at hb
      · next he =>
        obtain rfl := Except.ok.inj hb
        rw [Option.any_some, he]
        exact (Except.ok.inj ha).symm
      · next he =>
        split at hb
        · cases hb
        · obtain rfl := Except.ok.inj hb
          rw [Option.any_some, eq_false_of_ne_true he]
          exact (Except.ok.inj ha).symm

end ExpiringStore.Transaction
