import ExpiringStore.Proofs.Interleaving.Play

/-!
# Nothing live is lost

Readings may be old when a transaction that uses them takes effect.  A conditional removal with an
old reading still removes only what has expired, since the clock does not go back; and only writes
of entries change a payload.

    a row is gone        →   it was removed on request, or its deadline lies before the clock
    payload of a row     =   payload of the last commit that wrote its key
-/

namespace ExpiringStore

def Call.isRemoval : Call → Bool
  | .evict _ | .evictAll _ | .evictByPattern _ | .clear => true
  | _ => false

def Written.payload? (w : Written) (key : String) : Option Json :=
  if w.key.text = key then some w.payload else none

/-- The payload that a batch writes for a key: that of its last entry for it. -/
def WrittenMany.payload? (w : WrittenMany) (key : String) : Option Json :=
  (w.entries.reverse.find? (·.key.text == key)).map (·.payload)

def Call.payload? {τ : Type} (c : Config τ) (key : String) : Call → Option Json
  | .put k value ttl policy =>
    (Arguments.written c "put" k value ttl policy).toOption.bind (·.payload? key)
  | .putIfAbsent k value ttl policy =>
    (Arguments.written c "put_if_absent" k value ttl policy).toOption.bind (·.payload? key)
  | .putAll entries ttl policy =>
    (Arguments.writtenMany c entries ttl policy).toOption.bind (·.payload? key)
  | _ => none

def Commit.payload? {τ : Type} (c : Commit τ) (key : String) : Option Cell :=
  match c.transaction, c.reply with
  | .write rows, _ => (Transaction.lastRow key rows).map (·.payload)
  | .writeIfAbsent k row _, .inserted => if key = k then some row.payload else none
  | _, _ => none

/-- The payload that the last of some commits to write a key wrote, or the one before them. -/
def lastPayload {τ : Type} (key : String) (before : Option Cell) (commits : List (Commit τ)) :
    Option Cell :=
  commits.foldl (fun last c => (c.payload? key).or last) before

theorem lastPayload_append {τ : Type} (key : String) (before : Option Cell)
    (commits : List (Commit τ)) (c : Commit τ) :
    lastPayload key before (commits ++ [c]) =
      (c.payload? key).or (lastPayload key before commits) := by
  simp [lastPayload]

variable {τ : Type} [OrderedInstant τ]

namespace Call

/-- Only calls that remove entries on request make transactions that do. -/
theorem Makes.isRemoval {c : Config τ} {call : Call} {deeds : List (Deed τ)} {a : Transaction τ}
    {key : String} (h : call.Makes c deeds a) (ha : a.removes key = true) :
    call.isRemoval = true := by
  cases h with
  | evict | evictAll | evictByPattern | clear => rfl
  | _ => cases ha

/-- What a sweep or a lookup removes has expired to an earlier reading. -/
theorem Makes.read_of_removal {c : Config τ} {call : Call} {deeds : List (Deed τ)}
    {a : Transaction τ} {key : String} {now : τ} (h : call.Makes c deeds a)
    (ha : a = .removeExpired now ∨ a = .removeExpiredKey key now) : .read now ∈ deeds := by
  rcases ha with rfl | rfl
  · cases h with
    | cleanupExpired read => exact read
  · cases h with
    | expire _ _ read _ => exact read

/-- The rows that a call writes hold the payloads that it is to write. -/
theorem Makes.payload_of_write {c : Config τ} {call : Call} {deeds : List (Deed τ)}
    {rows : List (String × Row τ)} (h : call.Makes c deeds (.write rows)) (key : String) :
    (Transaction.lastRow key rows).map (·.payload) = (call.payload? c key).map .document := by
  cases h with
  | @put _ _ _ _ _ w now given read =>
    simp only [Call.payload?, given, Except.toOption, Option.bind_some, Written.payload?]
    show (Option.or none (if w.key.text = key then some (w.row now) else none)).map _ = _
    rw [Option.none_or]
    split <;> rfl
  | @putAll _ _ _ _ w now given read =>
    simp only [Call.payload?, given, Except.toOption, Option.bind_some, WrittenMany.payload?]
    rw [Transaction.lastRow_eq]
    unfold WrittenMany.rows
    rw [← List.map_reverse, List.find?_map, Option.map_map, Option.map_map, Option.map_map]
    rfl

theorem Makes.payload_of_writeIfAbsent {c : Config τ} {call : Call} {deeds : List (Deed τ)}
    {k : String} {row : Row τ} {now : τ} (h : call.Makes c deeds (.writeIfAbsent k row now)) :
    (call.payload? c k).map .document = some row.payload := by
  cases h with
  | putIfAbsent given read =>
    simp only [Call.payload?, given, Except.toOption, Option.bind_some, Written.payload?, if_true]
    rfl

end Call

namespace System

variable {s s' : System τ}

/-- A row that is gone was removed on request, or its deadline lies before the clock. -/
theorem Takes.gone {c : Commit τ} {caller : Caller τ} (h : Takes s c caller s') {key : String}
    {row : Row τ} (hfound : s.table.find? key = some row) (hgone : s'.table.find? key = none) :
    caller.call.isRemoval = true ∨ ∃ d, row.lifetime.deadline = some d ∧ d < s.clock := by
  rw [Transaction.find?_commit h.done key, hfound] at hgone
  rcases Transaction.onRow_eq_none hgone with hremoval | ⟨now, ha, hexpired⟩
  · exact .inl (h.made.isRemoval hremoval)
  · -- The reading may be old, but the clock has not gone back since.
    have hnow : now ≤ s.clock := h.readings now (h.made.read_of_removal ha)
    exact .inr ((Row.isExpired_iff row s.clock).1 (Row.isExpired_mono hnow hexpired))

/-- After a commit a row holds the payload that the commit wrote, or else the one it held. -/
theorem Takes.payload {c : Commit τ} {caller : Caller τ} (h : Takes s c caller s') {key : String}
    {row : Row τ} (hfound : s'.table.find? key = some row) :
    some row.payload = (c.payload? key).or ((s.table.find? key).map (·.payload)) := by
  have hdone := h.done
  have hrow := Transaction.find?_commit hdone key
  rw [hfound] at hrow
  obtain ⟨i, clock, found, a, r⟩ := c
  cases a with
  | write rows =>
    replace hrow : some row = (Transaction.lastRow key rows).or (s.table.find? key) := hrow
    show _ = ((Transaction.lastRow key rows).map (·.payload)).or _
    rw [← Option.map_or, ← hrow]
    rfl
  | writeIfAbsent k new now =>
    replace hrow : some row = if key = k ∧ (s.table.find? key).all (·.isExpired now) then some new
      else s.table.find? key := hrow
    rcases Transaction.commit_writeIfAbsent hdone with ⟨rfl, hall⟩ | ⟨old, rfl, hold, hlive⟩
    · show _ = (if key = k then some new.payload else none).or _
      by_cases hk : key = k
      · subst hk
        rw [if_pos ⟨rfl, hall⟩] at hrow
        rw [if_pos rfl, Option.some_or, Option.some.inj hrow]
      · rw [if_neg fun h => hk h.1] at hrow
        rw [if_neg hk, Option.none_or, ← hrow]
        rfl
    · have hn : ¬ (key = k ∧ (s.table.find? key).all (·.isExpired now) = true) := by
        rintro ⟨rfl, hall⟩
        rw [hold, Option.all_some, hlive] at hall
        cases hall
      rw [if_neg hn] at hrow
      rw [← hrow]
      rfl
  | touch k now | extend k ttl policy now =>
    -- The row changes, but not its payload.
    obtain ⟨old, hold, hrow⟩ := Option.map_eq_some_iff.1 hrow.symm
    rw [hold, ← hrow]
    show _ = some old.payload
    split <;> rfl
  | removeEvery => cases hrow
  | remove | removeExpiredKey | removeMany | removeMatching | removeExpired =>
    obtain ⟨hold, -⟩ := Option.filter_eq_some_iff.1 hrow.symm
    rw [hold]
    rfl
  | probe | fetch | fetchMany | isLive | liveKeys | countLive =>
    rw [← show some row = s.table.find? key from hrow]
    rfl

/-- A commit that wrote a payload is of a call that writes it. -/
theorem Sound.payload_written (h : Sound s) {c : Commit τ} (mem : c ∈ s.commits) {key : String}
    {p : Cell} (hp : c.payload? key = some p) :
    ∃ caller, s.callers[c.caller]? = some caller ∧
      (caller.call.payload? caller.config key).map .document = some p := by
  obtain ⟨caller, hc, hmade⟩ := h.made c mem
  refine ⟨caller, hc, ?_⟩
  obtain ⟨i, clock, found, a, r⟩ := c
  cases a with
  | write rows =>
    rw [← hmade.payload_of_write key]
    exact hp
  | writeIfAbsent k row now =>
    cases r with
    | inserted =>
      replace hp : (if key = k then some row.payload else none) = some p := hp
      split at hp
      · next hk =>
        subst hk
        rw [hmade.payload_of_writeIfAbsent, hp]
      · cases hp
    | present | neither => cases hp
  | _ => cases hp

variable [Delay τ]

/-- In every state that is reached, a row holds the payload of the last write of its key. -/
theorem Reachable.payload {t : Table τ} (h : Reachable t s) (key : String) :
    ∀ row, s.table.find? key = some row →
      some row.payload = lastPayload key ((t.find? key).map (·.payload)) s.commits := by
  refine h.induct (P := fun s => ∀ row, s.table.find? key = some row →
      some row.payload = lastPayload key ((t.find? key).map (·.payload)) s.commits)
    (fun clock row hfound => ?_) (fun s c caller s' _ ih htakes row hfound => ?_)
    (fun s s' _ ih hleaves row hfound => ?_)
  · show _ = (t.find? key).map _
    rw [show t.find? key = some row from hfound]
    rfl
  · rw [htakes.commits, lastPayload_append, htakes.payload hfound]
    cases hc : c.payload? key with
    | some p => rfl
    | none =>
      rw [Option.none_or, Option.none_or]
      cases hold : s.table.find? key with
      | some old => exact ih old hold
      | none =>
        have hp := htakes.payload hfound
        rw [hc, hold] at hp
        cases hp
  · rw [hleaves.commits]
    exact ih row (hleaves.table ▸ hfound)

/-- Whatever the order of the steps, no entry is lost that is neither removed on request nor past
its deadline, and a row holds what was last written for its key. -/
theorem nothing_live_lost {t : Table τ} (h : Reachable t s) :
    (∀ s' key row, Step s s' → s.table.find? key = some row → s'.table.find? key = none →
      (∃ c caller, Takes s c caller s' ∧ caller.call.isRemoval = true) ∨
        ∃ d, row.lifetime.deadline = some d ∧ d < s.clock) ∧
    (∀ key row, s.table.find? key = some row →
      some row.payload = lastPayload key ((t.find? key).map (·.payload)) s.commits) ∧
    ∀ c ∈ s.commits, ∀ key p, c.payload? key = some p →
      ∃ caller, s.callers[c.caller]? = some caller ∧
        (caller.call.payload? caller.config key).map .document = some p := by
  refine ⟨fun s' key row hstep hfound hgone => ?_, fun key => h.payload key,
    fun c mem key p hp => h.sound.payload_written mem hp⟩
  rcases hstep.takes_or_leaves h.sound with ⟨c, caller, htakes⟩ | hleaves
  · rcases htakes.gone hfound hgone with hremoval | hpast
    · exact .inl ⟨c, caller, htakes, hremoval⟩
    · exact .inr hpast
  · rw [hleaves.table, hfound] at hgone
    cases hgone

/-- A lookup finds an entry expired at 11; before it removes it, the entry is written again. -/
def revived : System Int :=
  play [
    .call .plain (.put (.str "k") (.str "old") (.int 10) Policy.absolute.toValue), .act 0 10,
    .tick 11, .call .plain (.get (.str "k")), .act 1 3,
    .call .plain (.put (.str "k") (.str "fresh") (.int 10) Policy.absolute.toValue), .act 2 10,
    .act 1 10] (start .empty 0)

theorem nothing_live_lost_revived :
    (revived.table.find? "k").isSome = true ∧
      ∀ row, revived.table.find? "k" = some row →
        some row.payload = lastPayload "k" none revived.commits :=
  ⟨by decide +kernel, (nothing_live_lost (play_reachable _ _ _)).2.1 "k"⟩

end System

end ExpiringStore
