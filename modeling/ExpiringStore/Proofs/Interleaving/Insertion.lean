import ExpiringStore.Proofs.Codec.Payload
import ExpiringStore.Proofs.Interleaving.Play
import ExpiringStore.Proofs.Interleaving.Loss
import ExpiringStore.Proofs.Table.Reply

/-!
# Exclusive insertions

Suppose that all calls that write, renew or remove the entry of a key on request are conditional
insertions of absolute entries.  Lookups, sweeps and whatever is done with other keys may come in
between at any time.  Then a row of the key is what some insertion left there, nothing moves its
deadline, and it goes only when it has expired.

    one insertion after another    →   the clock is past the deadline of the first
    a call that inserts nothing    →   it answers an inserted entry that is live at its reading
    all entries are permanent      →   one call inserts, all others answer what it inserted
-/

namespace ExpiringStore

/-! ## Calls that concern a key -/

/-- Does a transaction write, renew or remove the row of a key on request? -/
def Transaction.concerns {τ : Type} (key : String) : Transaction τ → Bool
  | .write rows => (lastRow key rows).isSome
  | .writeIfAbsent k _ _ => k == key
  | .extend k _ _ _ => k == key
  | a => a.removes key

/-- Is a call to write, renew or remove the entry of a key? -/
def Call.concerns {τ : Type} (c : Config τ) (key : String) : Call → Bool
  | .put k value ttl policy =>
    (Arguments.written c "put" k value ttl policy).toOption.any (·.key.text == key)
  | .putIfAbsent k value ttl policy =>
    (Arguments.written c "put_if_absent" k value ttl policy).toOption.any (·.key.text == key)
  | .putAll entries ttl policy =>
    (Arguments.writtenMany c entries ttl policy).toOption.any (·.entries.any (·.key.text == key))
  | .refreshTtl k ttl policy =>
    (Arguments.renewal k ttl policy).toOption.any (·.key.text == key)
  | .evict k => (Arguments.key k "evict").toOption.any (·.text == key)
  | .evictAll keys => (Arguments.keys keys "evict_all").toOption.any (·.any (·.text == key))
  | .evictByPattern pattern =>
    (Arguments.pattern pattern "evict_by_pattern").toOption.any fun g =>
      Like.selects (likeOfGlob g) key
  | .clear => true
  | _ => false

/-- What a call is to insert for a key, if it is a conditional insertion of an absolute entry. -/
def Call.insertion? {τ : Type} (c : Config τ) (key : String) : Call → Option Written
  | .putIfAbsent k value ttl policy =>
    (Arguments.written c "put_if_absent" k value ttl policy).toOption.filter fun w =>
      w.key.text == key && w.policy == .absolute
  | _ => none

def Commit.inserted? {τ : Type} (c : Commit τ) (key : String) : Option (Row τ) :=
  match c.transaction, c.reply with
  | .writeIfAbsent k row _, .inserted => if k = key then some row else none
  | _, _ => none

/-- A call is over, and not because a step of the storage failed. -/
def Caller.Answers {τ : Type} (caller : Caller τ) (r : Except Failure Answer) : Prop :=
  caller.result? = some r ∧ (caller.past.smooth = true ∨ r.isOk = true)

theorem Commit.inserted?_eq_some {τ : Type} {c : Commit τ} {key : String} {row : Row τ}
    (h : c.inserted? key = some row) : ∃ now,
      c = ⟨c.caller, c.clock, c.found, .writeIfAbsent key row now, Insertion.inserted⟩ := by
  obtain ⟨i, clock, found, a, r⟩ := c
  cases a with
  | writeIfAbsent k new now =>
    cases r with
    | inserted =>
      replace h : (if k = key then some new else none) = some row := h
      split at h
      · next hk =>
        obtain rfl := Option.some.inj h
        subst hk
        exact ⟨now, rfl⟩
      · cases h
    | present | neither => cases h
  | _ => cases h

variable {τ : Type} [OrderedInstant τ]

/-- What a transaction that does not concern a key does to its row: nothing, or it removes it when
it has expired.  A touch is the exception. -/
theorem Transaction.onRow_unconcerned {a : Transaction τ} {key : String}
    (ha : a.concerns key = false) (htouch : ∀ now, a ≠ .touch key now) (old : Option (Row τ)) :
    a.onRow key old = old ∨ ∃ now, (a = .removeExpired now ∨ a = .removeExpiredKey key now) ∧
      a.onRow key old = none ∧ old.all (·.isExpired now) = true := by
  cases hnew : a.onRow key old with
  | none =>
    cases old with
    | none => exact .inl rfl
    | some row =>
      rcases onRow_eq_none hnew with hremoves | ⟨now, hsweeps, hexpired⟩
      · have hconcerns : a.concerns key = true := by
          cases a <;> first | exact hremoves | cases hremoves
        rw [ha] at hconcerns
        cases hconcerns
      · exact .inr ⟨now, hsweeps, rfl, hexpired⟩
  | some row =>
    cases gives_of_onRow hnew with
    | same a row => exact .inl rfl
    | written old last =>
      rw [Transaction.concerns, last] at ha
      cases ha
    | inserted absent => exact absurd (beq_self_eq_true key) (ne_true_of_eq_false ha)
    | touched row now => exact absurd rfl (htouch now)
    | extended ttl policy live => exact absurd (beq_self_eq_true key) (ne_true_of_eq_false ha)

namespace Written

theorem slides_of_absolute {w : Written} (h : w.policy = .absolute) (now : τ) :
    (w.row now).slides = false := by
  show (Policy.ofStored w.policy.word == .sliding && _) = false
  rw [h]
  rfl

/-- An absolute entry expires so many seconds after it was written. -/
theorem isExpired_of_absolute {w : Written} (h : w.policy = .absolute) {n now : τ}
    (he : (w.row n).isExpired now = true) :
    ∃ ttl, w.ttl = some ttl ∧ Instant.plus n (Instant.ofSeconds ttl) < now := by
  have hstart : (w.row n).lifetime.start = n := by
    have hword : (w.row n).policy ≠ Policy.sliding.word := by
      show w.policy.word ≠ _
      rw [h]
      decide
    rw [Row.start_eq, if_neg hword]
    rfl
  cases hw : w.ttl with
  | none =>
    have hp : (w.row n).ttl = none := by
      show w.ttl.map _ = none
      rw [hw]
      rfl
    rw [Row.isExpired_of_permanent hp] at he
    cases he
  | some ttl =>
    have ht : (w.row n).ttl = some (Instant.ofSeconds ttl) := by
      show w.ttl.map _ = _
      rw [hw]
      rfl
    rw [Row.isExpired_of_ttl ht, hstart, OrderedInstant.before_iff] at he
    exact ⟨ttl, rfl, he⟩

end Written

namespace Call

/-- Only calls that concern a key make transactions that do. -/
theorem Makes.concerns {c : Config τ} {call : Call} {deeds : List (Deed τ)} {a : Transaction τ}
    {key : String} (h : call.Makes c deeds a) (ha : a.concerns key = true) :
    call.concerns c key = true := by
  cases h with
  | @put _ _ _ _ _ w now given read =>
    simp only [Call.concerns, given, Except.toOption, Option.any_some]
    replace ha : (Option.or none (if w.key.text = key then some (w.row now) else none)).isSome := ha
    simpa using ha
  | @putAll _ _ _ _ w now given read =>
    simp only [Call.concerns, given, Except.toOption, Option.any_some]
    replace ha : (Transaction.lastRow key (w.rows now)).isSome = true := ha
    rw [Transaction.lastRow_eq, Option.isSome_map, List.find?_isSome] at ha
    obtain ⟨q, hq, hkey⟩ := ha
    obtain ⟨e, he, rfl⟩ := List.mem_map.1 (List.mem_reverse.1 hq)
    exact List.any_eq_true.2 ⟨e, he, hkey⟩
  | @evictAll _ _ ks given =>
    simp only [Call.concerns, given, Except.toOption, Option.any_some]
    replace ha : (ks.map (·.text)).contains key = true := ha
    simpa using ha
  | putIfAbsent given | refreshTtl given | evictByPattern given =>
    simp only [Call.concerns, given, Except.toOption, Option.any_some]
    exact ha
  | @evict _ _ k given =>
    simp only [Call.concerns, given, Except.toOption, Option.any_some]
    replace ha : (key == k.text) = true := ha
    rw [beq_iff_eq] at ha ⊢
    exact ha.symm
  | clear => rfl
  | _ => cases ha

omit [OrderedInstant τ] in
theorem insertion?_eq_some {c : Config τ} {call : Call} {key : String} {w : Written}
    (h : call.insertion? c key = some w) : ∃ k value ttl policy,
      call = .putIfAbsent k value ttl policy ∧
      Arguments.written c "put_if_absent" k value ttl policy = .ok w ∧
      w.key.text = key ∧ w.policy = .absolute := by
  cases call with
  | putIfAbsent k value ttl policy =>
    obtain ⟨hw, hcond⟩ := Option.filter_eq_some_iff.1 h
    obtain ⟨hkey, hpolicy⟩ : w.key.text = key ∧ w.policy = .absolute := by simpa using hcond
    refine ⟨k, value, ttl, policy, rfl, ?_, hkey, hpolicy⟩
    cases hwritten : Arguments.written c "put_if_absent" k value ttl policy with
    | error f => rw [hwritten] at hw; cases hw
    | ok w' =>
      rw [hwritten] at hw
      rw [Option.some.inj hw]
  | _ => cases h

/-- A conditional insertion makes no other transaction than its own. -/
theorem Makes.of_insertion {c : Config τ} {call : Call} {deeds : List (Deed τ)}
    {a : Transaction τ} {key : String} {w : Written} (h : call.Makes c deeds a)
    (hw : call.insertion? c key = some w) :
    ∃ now, .read now ∈ deeds ∧ a = .writeIfAbsent key (w.row now) now := by
  obtain ⟨k, value, ttl, policy, rfl, hwritten, rfl, -⟩ := insertion?_eq_some hw
  cases h with
  | putIfAbsent given read =>
    obtain rfl := Except.ok.inj (hwritten.symm.trans given)
    exact ⟨_, read, rfl⟩

end Call

namespace System

variable {s s' : System τ} {key : String}

/-- Only conditional insertions of absolute entries concern a key. -/
def OnlyInsertions (key : String) (s : System τ) : Prop :=
  ∀ caller ∈ s.callers, caller.call.concerns caller.config key = true →
    (caller.call.insertion? caller.config key).isSome = true

instance (key : String) (s : System τ) : Decidable (OnlyInsertions key s) :=
  inferInstanceAs (Decidable (∀ caller ∈ s.callers, caller.call.concerns caller.config key = true →
    (caller.call.insertion? caller.config key).isSome = true))

/-- The rows of a key come from insertions, and each stays until it has expired. -/
structure Exclusive (key : String) (s : System τ) : Prop where
  held (row : Row τ) (found : s.table.find? key = some row) :
    ∃ c ∈ s.commits, c.inserted? key = some row
  kept (c : Commit τ) (mem : c ∈ s.commits) (row : Row τ) (ins : c.inserted? key = some row) :
    s.table.find? key = some row ∨ row.isExpired s.clock = true
  /-- Nothing is inserted before what was inserted last has expired. -/
  apart : s.commits.Pairwise fun c d => ∀ row, c.inserted? key = some row →
    (d.inserted? key).isSome = true → row.isExpired d.clock = true
  /-- What transactions have met was inserted as well. -/
  met (c : Commit τ) (mem : c ∈ s.commits) (row : Row τ) (found : c.found.find? key = some row) :
    ∃ d ∈ s.commits, d.inserted? key = some row

/-- A caller of this number is to insert an entry for a key. -/
def Inserts (s : System τ) (key : String) (i : Nat) (caller : Caller τ) (w : Written) : Prop :=
  s.callers[i]? = some caller ∧ caller.call.insertion? caller.config key = some w

omit [OrderedInstant τ] in
theorem OnlyInsertions.of_grows (h : OnlyInsertions key s') (hgrows : Grows s s') :
    OnlyInsertions key s := by
  intro caller mem hconcerns
  obtain ⟨i, atI⟩ := List.mem_iff_getElem?.1 mem
  obtain ⟨later, hlater, hconfig, hcall⟩ := hgrows i caller atI
  have hi := h later (List.mem_of_getElem? hlater)
  rw [hconfig, hcall] at hi
  exact hi hconcerns

/-- A caller whose transaction concerns the key is to insert, and attempts nothing else. -/
theorem OnlyInsertions.transaction (h : OnlyInsertions key s) {i : Nat} {caller : Caller τ}
    (atI : s.callers[i]? = some caller) {a : Transaction τ}
    (hmade : caller.call.Makes caller.config caller.past.deeds a) (ha : a.concerns key = true) :
    ∃ w now, caller.call.insertion? caller.config key = some w ∧ .read now ∈ caller.past.deeds ∧
      a = .writeIfAbsent key (w.row now) now := by
  have hsome := h caller (List.mem_of_getElem? atI) (hmade.concerns ha)
  obtain ⟨w, hw⟩ := Option.isSome_iff_exists.1 hsome
  obtain ⟨now, read, ha⟩ := hmade.of_insertion hw
  exact ⟨w, now, hw, read, ha⟩

/-- An inserted row is the row that its caller was to insert, stamped with its reading. -/
theorem Sound.of_inserted (h : Sound s) (honly : OnlyInsertions key s) {c : Commit τ}
    (mem : c ∈ s.commits) {row : Row τ} (hins : c.inserted? key = some row) :
    ∃ caller w now, s.Inserts key c.caller caller w ∧ .read now ∈ caller.past.deeds ∧
      row = w.row now := by
  obtain ⟨caller, atC, hmade⟩ := h.made c mem
  obtain ⟨now, hc⟩ := Commit.inserted?_eq_some hins
  have ha : c.transaction = .writeIfAbsent key row now := by rw [hc]
  rw [ha] at hmade
  obtain ⟨w, now', hw, read, heq⟩ := honly.transaction atC hmade (beq_self_eq_true key)
  cases heq
  exact ⟨caller, w, now, ⟨atC, hw⟩, read, rfl⟩

/-- No entry of the key slides, so that no lookup touches it. -/
theorem Takes.not_touch {c : Commit τ} {caller : Caller τ} (h : Takes s c caller s')
    (hsound : Sound s) (honly : OnlyInsertions key s) (hex : Exclusive key s) (now : τ) :
    c.transaction ≠ .touch key now := by
  intro ha
  have hmade := h.made
  rw [ha] at hmade
  obtain ⟨row, fetched, slides⟩ : ∃ row, .committed (.fetch key) (some row) ∈ caller.past.deeds ∧
      row.slides = true := by
    generalize caller.call = call at hmade
    cases hmade with
    | touch given fetched read live slides => exact ⟨_, fetched, (Bool.and_eq_true_iff.1 slides).2⟩
  -- The row was met by a transaction of the same caller, hence inserted by somebody.
  obtain ⟨clock, found, mem⟩ := hsound.commit_of_deed h.under fetched
  obtain ⟨-, t, hdone⟩ := hsound.done _ mem
  obtain ⟨d, hd, hins⟩ := hex.met _ mem row (Transaction.reply_fetch hdone).symm
  obtain ⟨caller', w, n, ⟨-, hw⟩, -, rfl⟩ := hsound.of_inserted honly hd hins
  obtain ⟨_, _, _, _, -, -, -, habsolute⟩ := Call.insertion?_eq_some hw
  rw [Written.slides_of_absolute habsolute] at slides
  cases slides

/-- What a commit does to the row of the key: nothing, or it removes it when it has expired, or it
inserts a row where there is none or an expired one. -/
theorem Takes.cases_row {c : Commit τ} {caller : Caller τ} (h : Takes s c caller s')
    (hsound : Sound s) (honly : OnlyInsertions key s) (hex : Exclusive key s) :
    (c.inserted? key = none ∧ s'.table.find? key = s.table.find? key) ∨
    (c.inserted? key = none ∧ s'.table.find? key = none ∧
      (s.table.find? key).all (·.isExpired s.clock) = true) ∨
    ∃ row, c.inserted? key = some row ∧ s'.table.find? key = some row ∧
      (s.table.find? key).all (·.isExpired s.clock) = true := by
  have hdone := h.done
  have hmade := h.made
  have hrow := Transaction.find?_commit hdone key
  have hnot := h.not_touch hsound honly hex
  -- A row that has expired at a reading has expired by now.
  have hpast : ∀ now, .read now ∈ caller.past.deeds →
      (s.table.find? key).all (·.isExpired now) = true →
      (s.table.find? key).all (·.isExpired s.clock) = true := by
    intro now read hall
    cases hf : s.table.find? key with
    | none => rfl
    | some row =>
      rw [hf] at hall
      exact Row.isExpired_mono (h.readings now read) hall
  by_cases ha : c.transaction.concerns key = true
  · obtain ⟨w, now, -, read, ha⟩ := honly.transaction h.under hmade ha
    obtain ⟨i, clock, found, a, r⟩ := c
    obtain rfl : a = .writeIfAbsent key (w.row now) now := ha
    replace hrow : s'.table.find? key =
      if key = key ∧ (s.table.find? key).all (·.isExpired now) then some (w.row now)
        else s.table.find? key := hrow
    rcases Transaction.commit_writeIfAbsent hdone with ⟨rfl, hall⟩ | ⟨old, rfl, hold, hlive⟩
    · rw [if_pos ⟨rfl, hall⟩] at hrow
      exact .inr (.inr ⟨w.row now, if_pos rfl, hrow, hpast now read hall⟩)
    · rw [if_neg (by simp [hold, hlive])] at hrow
      exact .inl ⟨rfl, hrow⟩
  · have hnone : c.inserted? key = none := by
      rw [Option.eq_none_iff_forall_ne_some]
      intro row hins
      obtain ⟨now, hc⟩ := Commit.inserted?_eq_some hins
      rw [hc] at ha
      exact ha (beq_self_eq_true key)
    rcases Transaction.onRow_unconcerned (eq_false_of_ne_true ha) hnot (s.table.find? key) with
      heq | ⟨now, ha, heq, hall⟩
    · exact .inl ⟨hnone, hrow.trans heq⟩
    · exact .inr (.inl ⟨hnone, hrow.trans heq, hpast now (hmade.read_of_removal ha) hall⟩)

theorem exclusive_start {t : Table τ} (hnone : t.find? key = none) (clock : τ) :
    Exclusive key (start t clock) where
  held row found := by
    rw [show t.find? key = some row from found] at hnone
    cases hnone
  kept c mem := by cases mem
  apart := List.Pairwise.nil
  met c mem := by cases mem

theorem Exclusive.leaves (h : Exclusive key s) (hleaves : Leaves s s') : Exclusive key s' := by
  obtain ⟨hclock, htable, hcommits, -⟩ := hleaves
  constructor
  · intro row found
    rw [hcommits]
    exact h.held row (htable ▸ found)
  · intro c mem row ins
    rw [htable]
    rcases h.kept c (hcommits ▸ mem) row ins with hfound | hexpired
    · exact .inl hfound
    · exact .inr (Row.isExpired_mono hclock hexpired)
  · rw [hcommits]
    exact h.apart
  · rw [hcommits]
    exact h.met

theorem Exclusive.takes (h : Exclusive key s) (hsound : Sound s) (honly : OnlyInsertions key s)
    {c : Commit τ} {caller : Caller τ} (htakes : Takes s c caller s') : Exclusive key s' := by
  have hcases := htakes.cases_row hsound honly h
  have hbefore : ∀ row, (∃ d ∈ s.commits, d.inserted? key = some row) →
      ∃ d ∈ s'.commits, d.inserted? key = some row := by
    rintro row ⟨d, mem, ins⟩
    rw [htakes.commits]
    exact ⟨d, List.mem_append_left _ mem, ins⟩
  constructor
  · intro row found
    rcases hcases with ⟨-, heq⟩ | ⟨-, hnone, -⟩ | ⟨new, hins, hnew, -⟩
    · exact hbefore row (h.held row (heq ▸ found))
    · rw [hnone] at found
      cases found
    · obtain rfl := Option.some.inj (hnew.symm.trans found)
      rw [htakes.commits]
      exact ⟨c, by simp, hins⟩
  · intro d mem row ins
    rw [htakes.commits, List.mem_append, List.mem_singleton] at mem
    rw [htakes.clock]
    rcases mem with mem | rfl
    · rcases h.kept d mem row ins with hfound | hexpired
      · rw [hfound] at hcases
        rcases hcases with ⟨-, heq⟩ | ⟨-, -, hall⟩ | ⟨new, -, -, hall⟩
        · exact .inl heq
        · exact .inr hall
        · exact .inr hall
      · exact .inr hexpired
    · rcases hcases with ⟨hnone, -⟩ | ⟨hnone, -⟩ | ⟨new, hins, hnew, -⟩
      · rw [hnone] at ins
        cases ins
      · rw [hnone] at ins
        cases ins
      · rw [hins] at ins
        exact .inl (hnew.trans ins)
  · rw [htakes.commits, List.pairwise_append]
    refine ⟨h.apart, List.pairwise_singleton .., fun d mem c' mem' row ins hsome => ?_⟩
    obtain rfl := List.mem_singleton.1 mem'
    rw [htakes.stamped]
    rcases h.kept d mem row ins with hfound | hexpired
    · rw [hfound] at hcases
      rcases hcases with ⟨hnone, -⟩ | ⟨hnone, -⟩ | ⟨new, -, -, hall⟩
      · rw [hnone] at hsome
        cases hsome
      · rw [hnone] at hsome
        cases hsome
      · exact hall
    · exact hexpired
  · intro d mem row found
    rw [htakes.commits, List.mem_append, List.mem_singleton] at mem
    rcases mem with mem | rfl
    · exact hbefore row (h.met d mem row found)
    · rw [htakes.found] at found
      exact hbefore row (h.held row found)

/-! ## How insertions come out -/

/-- How a call came out that was to insert an entry for a key: it inserted the entry, or it met an
inserted entry that is live at its reading, and answered its value. -/
inductive Settled (s : System τ) (key : String) (i : Nat) (w : Written) :
    List (Deed τ) → Except Failure Answer → Prop
  | inserted (now : τ) : Settled s key i w
      [.read now, .committed (.writeIfAbsent key (w.row now) now) .inserted] (.ok (.lookup .miss))
  | found (now clock : τ) (t : Table τ) (row : Row τ) (v : Value)
      (mem : ⟨i, clock, t, .writeIfAbsent key (w.row now) now, .present row⟩ ∈ s.commits)
      (there : t.find? key = some row) (live : row.isExpired now = false)
      (origin : ∃ d ∈ s.commits, d.inserted? key = some row)
      (decodes : Payload.decode row.payload.value none (some w.key) = .ok v) :
      Settled s key i w
        [.read now, .committed (.writeIfAbsent key (w.row now) now) (.present row)]
        (.ok (.lookup (.ofDecoded v)))

/-- Every call that was to insert and that is over has come out as it should.  A conditional
insertion that neither inserts nor meets a live entry does not occur, so one attempt is enough. -/
theorem Sound.settled (h : Sound s) (honly : OnlyInsertions key s) (hex : Exclusive key s) {i : Nat}
    {caller : Caller τ} {w : Written} (hi : s.Inserts key i caller w) {r : Except Failure Answer}
    (hr : caller.Answers r) : Settled s key i w caller.past.deeds r := by
  obtain ⟨atI, hw⟩ := hi
  obtain ⟨k, value, ttl, policy, hcall, hwritten, rfl, -⟩ := Call.insertion?_eq_some hw
  have hfollows := h.follows i caller atI
  have hrest : caller.rest = .done r := by
    have hresult := hr.1
    unfold Caller.result? at hresult
    split at hresult
    · next hrest => rw [hrest, Option.some.inj hresult]
    · cases hresult
  rw [hrest] at hfollows
  have hends : Call.Inserted w (2 + 1) caller.past.deeds r := by
    have hends : caller.call.Ends caller.config caller.past.deeds r := by
      refine hfollows (hr.2.imp_right fun hok => ⟨?_, hok⟩)
      rw [hcall]
      rfl
    rw [hcall] at hends
    simp only [Call.Ends, hwritten] at hends
    exact hends
  -- The reply of an attempt is what its transaction found.
  have hreply : ∀ now reply, .committed (.writeIfAbsent w.key.text (w.row now) now) reply ∈
        caller.past.deeds → reply = .inserted ∨ ∃ row clock t, reply = .present row ∧
      ⟨i, clock, t, .writeIfAbsent w.key.text (w.row now) now, .present row⟩ ∈ s.commits ∧
      t.find? w.key.text = some row ∧ row.isExpired now = false := by
    intro now reply hmem
    obtain ⟨clock, t, mem⟩ := h.commit_of_deed atI hmem
    obtain ⟨-, t', hdone⟩ := h.done _ mem
    rcases Transaction.commit_writeIfAbsent hdone with ⟨hr, -⟩ | ⟨row, rfl, there, live⟩
    · exact .inl hr
    · exact .inr ⟨row, clock, t, rfl, mem, there, live⟩
  generalize caller.past.deeds = deeds at hends hreply
  cases hends with
  | inserted left now => exact .inserted now
  | present left now row =>
    rcases hreply now (.present row) (by simp) with hr | ⟨old, clock, t, heq, mem, there, live⟩
    · cases hr
    · cases heq
      obtain ⟨d, hd, hins⟩ := hex.met _ mem row there
      obtain ⟨other, w', n, ⟨-, hw'⟩, -, rfl⟩ := h.of_inserted honly hd hins
      obtain ⟨_, _, _, _, -, hwritten', -, -⟩ := Call.insertion?_eq_some hw'
      obtain ⟨v, hv⟩ := Arguments.written_decodes hwritten'
      have hdecodes : Payload.decode (w'.row n).payload.value none (some w.key) = .ok v := hv _
      rw [hdecodes]
      exact .found now clock t _ v mem there live ⟨d, hd, hins⟩ hdecodes
  | neither left now rest =>
    rcases hreply now .neither (by simp) with hr | ⟨old, _, _, hr, -⟩
    · cases hr
    · cases hr

/-- If an entry is inserted after another, the first one was to expire, and has. -/
theorem Exclusive.expired (h : Exclusive key s) (hsound : Sound s) (honly : OnlyInsertions key s)
    {i j : Nat} {c d : Commit τ} (hij : i < j) (hi : s.commits[i]? = some c)
    (hj : s.commits[j]? = some d) {row : Row τ} (hins : c.inserted? key = some row)
    (hsome : (d.inserted? key).isSome = true) :
    ∃ caller w n ttl, s.Inserts key c.caller caller w ∧ .read n ∈ caller.past.deeds ∧
      row = w.row n ∧ w.ttl = some ttl ∧ Instant.plus n (Instant.ofSeconds ttl) < d.clock := by
  obtain ⟨hilen, rfl⟩ := List.getElem?_eq_some_iff.1 hi
  obtain ⟨hjlen, rfl⟩ := List.getElem?_eq_some_iff.1 hj
  have hexpired := List.pairwise_iff_getElem.1 h.apart i j hilen hjlen hij row hins hsome
  obtain ⟨caller, w, n, hcaller, read, rfl⟩ := hsound.of_inserted honly (List.getElem_mem _) hins
  obtain ⟨_, _, _, _, -, -, -, habsolute⟩ := Call.insertion?_eq_some hcaller.2
  obtain ⟨ttl, httl, hlt⟩ := Written.isExpired_of_absolute habsolute hexpired
  exact ⟨caller, w, n, ttl, hcaller, read, rfl, httl, hlt⟩

/-- If all entries are permanent, only one of them is ever inserted. -/
theorem Exclusive.unique (h : Exclusive key s) (hsound : Sound s) (honly : OnlyInsertions key s)
    (hpermanent : ∀ i caller w, s.Inserts key i caller w → w.ttl = none) {c d : Commit τ}
    (hc : c ∈ s.commits) (hd : d ∈ s.commits) (hcins : (c.inserted? key).isSome = true)
    (hdins : (d.inserted? key).isSome = true) : c = d := by
  have hnever : ∀ (i j : Nat) (c d : Commit τ), i < j → s.commits[i]? = some c →
      s.commits[j]? = some d → (c.inserted? key).isSome = true →
      (d.inserted? key).isSome = true → False := by
    intro i j c d hij hi hj hcins hdins
    obtain ⟨row, hrow⟩ := Option.isSome_iff_exists.1 hcins
    obtain ⟨caller, w, n, ttl, hcaller, -, -, httl, -⟩ :=
      h.expired hsound honly hij hi hj hrow hdins
    rw [hpermanent _ _ _ hcaller] at httl
    cases httl
  obtain ⟨i, hi⟩ := List.mem_iff_getElem?.1 hc
  obtain ⟨j, hj⟩ := List.mem_iff_getElem?.1 hd
  rcases Nat.lt_trichotomy i j with hlt | rfl | hlt
  · exact (hnever i j c d hlt hi hj hcins hdins).elim
  · exact Option.some.inj (hi.symm.trans hj)
  · exact (hnever j i d c hlt hj hi hdins hcins).elim

/-- If all entries are permanent and all calls are over, of which there is one at least, one of
them has inserted its entry, and the others answer what that one inserted. -/
theorem Exclusive.winner (h : Exclusive key s) (hsound : Sound s) (honly : OnlyInsertions key s)
    (hover : ∀ i caller w, s.Inserts key i caller w → w.ttl = none ∧ ∃ r, caller.Answers r)
    (hsome : ∃ i caller w, s.Inserts key i caller w) :
    ∃ i caller w v, s.Inserts key i caller w ∧ caller.result? = some (.ok (.lookup .miss)) ∧
      (∀ k, Payload.decode (Value.ofJson w.payload) none k = .ok v) ∧
      Lookup.ofDecoded v ≠ .miss ∧
      ∀ j other w', j ≠ i → s.Inserts key j other w' →
        other.result? = some (.ok (.lookup (.ofDecoded v))) := by
  have hpermanent : ∀ i caller w, s.Inserts key i caller w → w.ttl = none :=
    fun i caller w hi => (hover i caller w hi).1
  -- A call that inserted has left its commit on record.
  have hrecord : ∀ i caller (w : Written) now, s.callers[i]? = some caller →
      caller.past.deeds = [.read now,
        .committed (.writeIfAbsent key (w.row now) now) .inserted] →
      ∃ c ∈ s.commits, c.caller = i ∧ c.inserted? key = some (w.row now) := by
    intro i caller w now atI hdeeds
    obtain ⟨clock, t, mem⟩ := hsound.commit_of_deed atI (a := .writeIfAbsent key (w.row now) now)
      (r := Insertion.inserted) (by simp [hdeeds])
    exact ⟨_, mem, rfl, if_pos rfl⟩
  obtain ⟨c, hc, row, hins⟩ : ∃ c ∈ s.commits, ∃ row, c.inserted? key = some row := by
    obtain ⟨i, caller, w, hi⟩ := hsome
    obtain ⟨-, r, hr⟩ := hover i caller w hi
    have hsettled := hsound.settled honly h hi hr
    generalize hdeeds : caller.past.deeds = deeds at hsettled
    cases hsettled with
    | inserted now =>
      obtain ⟨c, hc, -, hins⟩ := hrecord i caller w now hi.1 hdeeds
      exact ⟨c, hc, _, hins⟩
    | found now clock t row v mem there live origin decodes =>
      obtain ⟨d, hd, hins⟩ := origin
      exact ⟨d, hd, row, hins⟩
  obtain ⟨caller, w, n, hcaller, -, rfl⟩ := hsound.of_inserted honly hc hins
  obtain ⟨_, _, _, _, -, hwritten, -, -⟩ := Call.insertion?_eq_some hcaller.2
  obtain ⟨v, hv⟩ := Arguments.written_decodes hwritten
  refine ⟨c.caller, caller, w, v, hcaller, ?_, hv, Lookup.ofDecoded_ne_miss v, ?_⟩
  · obtain ⟨-, r, hr⟩ := hover _ _ _ hcaller
    have hsettled := hsound.settled honly h hcaller hr
    have hdeed := hsound.deed_of_commit hc hcaller.1
    generalize caller.past.deeds = deeds at hsettled hdeed
    cases hsettled with
    | inserted now => exact hr.1
    | found now clock t row v mem there live origin decodes =>
      obtain ⟨now', hshape⟩ := Commit.inserted?_eq_some hins
      rw [hshape] at hdeed
      simp [Commit.deed] at hdeed
  · intro j other w' hj hother
    obtain ⟨-, r, hr⟩ := hover _ _ _ hother
    have hsettled := hsound.settled honly h hother hr
    generalize hdeeds : other.past.deeds = deeds at hsettled
    cases hsettled with
    | inserted now =>
      obtain ⟨d, hd, rfl, hdins⟩ := hrecord j other w' now hother.1 hdeeds
      have heq : c = d := h.unique hsound honly hpermanent hc hd (by rw [hins]; rfl)
        (by rw [hdins]; rfl)
      rw [heq] at hj
      exact (hj rfl).elim
    | found now clock t row v' mem there live origin decodes =>
      obtain ⟨d, hd, hdins⟩ := origin
      have heq : c = d := h.unique hsound honly hpermanent hc hd (by rw [hins]; rfl)
        (by rw [hdins]; rfl)
      rw [← heq, hins] at hdins
      obtain rfl := Option.some.inj hdins
      have hdecodes : Payload.decode (w.row n).payload.value none (some w'.key) = .ok v := hv _
      rw [hdecodes] at decodes
      rw [hr.1, Except.ok.inj decodes]

variable [Delay τ]

theorem Reachable.exclusive {t : Table τ} (h : Reachable t s) (hnone : t.find? key = none)
    (honly : OnlyInsertions key s) : Exclusive key s := by
  refine h.induct (P := fun s => OnlyInsertions key s → Exclusive key s)
    (fun clock _ => exclusive_start hnone clock) (fun s c caller s' hreach ih htakes honly => ?_)
    (fun s s' _ ih hleaves honly => ?_) honly
  · have honly' := honly.of_grows htakes.grows
    exact (ih honly').takes hreach.sound honly' htakes
  · exact (ih (honly.of_grows hleaves.grows)).leaves hleaves

/-- Conditional insertion is exclusive, whatever lookups, sweeps and calls for other keys do in the
meantime: what one call inserted has expired before another inserts, a call that does not insert
answers an inserted entry that is live at its reading, and of permanent entries one is inserted. -/
theorem insertion_exclusive {t : Table τ} (h : Reachable t s) (hnone : t.find? key = none)
    (honly : OnlyInsertions key s) :
    (∀ (i j : Nat) (c d : Commit τ) (row : Row τ), i < j → s.commits[i]? = some c →
      s.commits[j]? = some d → c.inserted? key = some row → (d.inserted? key).isSome = true →
      ∃ caller w n ttl, s.Inserts key c.caller caller w ∧ .read n ∈ caller.past.deeds ∧
        row = w.row n ∧ w.ttl = some ttl ∧ Instant.plus n (Instant.ofSeconds ttl) < d.clock) ∧
    (∀ i caller w r, s.Inserts key i caller w → caller.Answers r →
      Settled s key i w caller.past.deeds r) ∧
    ((∀ i caller w, s.Inserts key i caller w → w.ttl = none ∧ ∃ r, caller.Answers r) →
      (∃ i caller w, s.Inserts key i caller w) →
      ∃ i caller w v, s.Inserts key i caller w ∧ caller.result? = some (.ok (.lookup .miss)) ∧
        (∀ k, Payload.decode (Value.ofJson w.payload) none k = .ok v) ∧
        Lookup.ofDecoded v ≠ .miss ∧
        ∀ j other w', j ≠ i → s.Inserts key j other w' →
          other.result? = some (.ok (.lookup (.ofDecoded v)))) := by
  have hsound := h.sound
  have hex := h.exclusive hnone honly
  refine ⟨?_, ?_, ?_⟩
  · intro i j c d row hij hi hj hins hsome
    exact hex.expired hsound honly hij hi hj hins hsome
  · intro i caller w r hi hr
    exact hsound.settled honly hex hi hr
  · intro hover hsome
    exact hex.winner hsound honly hover hsome

/-- A call that is to insert an entry without a slide. -/
def inserting (value : String) (ttl : Value) : Call :=
  .putIfAbsent (.str "k") (.str value) ttl Policy.absolute.toValue

/-- The second caller reads the clock at 9 and inserts at 11, when a lookup has found the entry of
the first one expired.  The third meets the entry of the second. -/
def contended : System Int :=
  play [
    .call .plain (inserting "first" (.int 10)), .act 0 10,
    .tick 9, .call .plain (inserting "second" .none), .act 1 2,
    .tick 11, .call .plain (.get (.str "k")), .act 2 10, .act 1 10,
    .call .plain (inserting "third" .none), .act 3 10] (start .empty 0)

/-- Three callers take turns with permanent entries, and the second one is the fastest. -/
def agreed : System Int :=
  play [
    .call .plain (inserting "first" .none), .call .plain (inserting "second" .none), .act 0 2,
    .act 1 10, .call .plain (inserting "third" .none), .act 2 10, .act 0 10] (start .empty 0)

theorem insertion_exclusive_contended :
    (∃ caller w n ttl, contended.Inserts "k" 0 caller w ∧ .read n ∈ caller.past.deeds ∧
      w.ttl = some ttl ∧ Instant.plus n (Instant.ofSeconds ttl) < 11) ∧
    (∃ caller w r, contended.Inserts "k" 3 caller w ∧
      Settled contended "k" 3 w caller.past.deeds r) ∧
    ∃ i caller w, agreed.Inserts "k" i caller w ∧
      caller.result? = some (.ok (.lookup .miss)) := by
  have hreach : Reachable .empty contended := play_reachable _ _ _
  obtain ⟨hexpired, hsettled, -⟩ := insertion_exclusive hreach rfl
    (show OnlyInsertions "k" contended by decide +kernel)
  refine ⟨?_, ?_, ?_⟩
  · have hfirst : (contended.commits[0]?).any (fun c => c.caller == 0 &&
        (c.inserted? "k").isSome) = true := by decide +kernel
    have hlast : (contended.commits[3]?).any (fun d => d.clock == 11 &&
        (d.inserted? "k").isSome) = true := by decide +kernel
    obtain ⟨c, hc, hfirst⟩ := (Option.any_eq_true ..).1 hfirst
    obtain ⟨d, hd, hlast⟩ := (Option.any_eq_true ..).1 hlast
    obtain ⟨hcaller, hins⟩ : c.caller = 0 ∧ (c.inserted? "k").isSome = true := by
      simpa using hfirst
    obtain ⟨hclock, hsome⟩ : d.clock = 11 ∧ (d.inserted? "k").isSome = true := by
      simpa using hlast
    obtain ⟨row, hrow⟩ := Option.isSome_iff_exists.1 hins
    obtain ⟨caller, w, n, ttl, hinserts, read, -, httl, hlt⟩ :=
      hexpired 0 3 c d row (by decide) hc hd hrow hsome
    rw [hcaller] at hinserts
    rw [hclock] at hlt
    exact ⟨caller, w, n, ttl, hinserts, read, httl, hlt⟩
  · have hdone : (contended.callers[3]?).any (fun caller => caller.result?.isSome &&
        caller.past.smooth && (caller.call.insertion? caller.config "k").isSome) = true := by
      decide +kernel
    obtain ⟨caller, hcaller, hdone⟩ := (Option.any_eq_true ..).1 hdone
    obtain ⟨⟨hresult, hsmooth⟩, hinsertion⟩ : (caller.result?.isSome = true ∧
        caller.past.smooth = true) ∧
        (caller.call.insertion? caller.config "k").isSome = true := by simpa using hdone
    obtain ⟨r, hr⟩ := Option.isSome_iff_exists.1 hresult
    obtain ⟨w, hw⟩ := Option.isSome_iff_exists.1 hinsertion
    exact ⟨caller, w, r, ⟨hcaller, hw⟩, hsettled 3 caller w r ⟨hcaller, hw⟩ ⟨hr, .inl hsmooth⟩⟩
  · have hreach : Reachable .empty agreed := play_reachable _ _ _
    obtain ⟨-, -, hwinner⟩ := insertion_exclusive hreach rfl
      (show OnlyInsertions "k" agreed by decide +kernel)
    have hdone : ∀ caller ∈ agreed.callers, ∀ w ∈ caller.call.insertion? caller.config "k",
        w.ttl = none ∧ caller.result?.isSome = true ∧ caller.past.smooth = true := by
      decide +kernel
    have hover : ∀ i caller w, agreed.Inserts "k" i caller w →
        w.ttl = none ∧ ∃ r, caller.Answers r := by
      intro i caller w hi
      obtain ⟨httl, hresult, hsmooth⟩ := hdone caller (List.mem_of_getElem? hi.1) w hi.2
      obtain ⟨r, hr⟩ := Option.isSome_iff_exists.1 hresult
      exact ⟨httl, r, hr, .inl hsmooth⟩
    have hfirst : (agreed.callers[0]?).any (fun caller =>
        (caller.call.insertion? caller.config "k").isSome) = true := by decide +kernel
    obtain ⟨caller, hcaller, hins⟩ := (Option.any_eq_true ..).1 hfirst
    obtain ⟨w, hw⟩ := Option.isSome_iff_exists.1 hins
    obtain ⟨i, winner, w', v, hinserts, hmiss, -⟩ := hwinner hover ⟨0, caller, w, hcaller, hw⟩
    exact ⟨i, winner, w', hinserts, hmiss⟩

end System

end ExpiringStore
