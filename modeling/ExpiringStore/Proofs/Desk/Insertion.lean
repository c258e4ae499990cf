import ExpiringStore.Proofs.Desk.BatchWrites
import ExpiringStore.Proofs.Program.Attempts
import ExpiringStore.Proofs.Table.Vacancy

/-!
# Conditional insertions that settle at once

At a steady station a conditional insertion attempts one transaction.  If the key is vacant it
leaves what a put leaves; if a live row is there, it answers what is in the row and leaves
everything as it is.  Which of the two it is, is what a question for the key answers at the same
instant.

    contains_key k = false   →   put_if_absent k v leaves what put k v leaves, and answers a miss
    contains_key k = true    →   put_if_absent k v answers what was found
                                                                       (putIfAbsent_settles_at_once)
-/

namespace ExpiringStore

variable {τ σ α : Type}

section
variable [Instant τ] {c : Config τ} {now : τ} {ls : List ListenerId} {d d' : Desk τ}
  {r : Except Failure Answer}

/-! ## What a put leaves -/

/-- The desk after an entry was written, counted and announced. -/
def Desk.received (d : Desk τ) (t : Table τ) (ls : List ListenerId) (e : Event) : Desk τ where
  table := t
  statistics := d.statistics.record .puts 1
  memo := d.memo.after .forgetSize
  heard := d.heard ++ heardOf ls [e]

theorem Does.received {t : Table τ} {e : Event} {told : List (Mark τ)}
    (announced : Announced [e] told) (marks : ∀ m ∈ told, m.IsOf now ls)
    (h : Does (fun d d' => d' = d) ([.noted (.record .puts 1), .noted .forgetSize] ++ told)
      { d with table := t } d') : d' = d.received t ls e := by
  obtain ⟨d₁, rfl, d₂, rfl, htold⟩ := h
  rw [htold.announced (fun _ _ h => h) announced,
    hearings_announced announced fun ls' mem => marks _ mem]
  rfl

namespace Settled

variable {key value ttl policy : Value} {w : Written} {kept : Row τ}

/-- A key is there if it has a live row. -/
theorem containsKey {k : Key} (given : Arguments.key key "contains_key" = .ok k)
    (settled : Settled c (.containsKey key) now ls d d' r) :
    r = .ok (.bool (d.table.hasLive k.text now)) := by
  cases settled with
  | accounts account marks does =>
    obtain ⟨n, b, hmarks, hr⟩ := Call.Vetted.rest account given
    rw [hmarks] at marks does
    obtain rfl : n = now := marks (.read n) (by simp)
    obtain ⟨d₀, hread, d₁, ⟨t, hcommit, -⟩, -⟩ := does
    obtain rfl : d₀ = d := hread
    rw [Transaction.commit_isLive] at hcommit
    rw [hr, (Prod.mk.inj (Except.ok.inj hcommit)).1]
  | refused made read refuses same =>
    cases made with
    | containsKey given' hread =>
      rw [Transaction.commit_isLive] at refuses
      cases refuses

/-- A put leaves its row, which is counted and announced. -/
theorem put_received (given : Arguments.written c "put" key value ttl policy = .ok w)
    (keeps : Transaction.constrained (w.row now) = .ok kept)
    (settled : Settled c (.put key value ttl policy) now ls d d' r) :
    r = .ok .nothing ∧
      d' = d.received (d.table.insert w.key.text kept) ls (.put w.key value) := by
  cases settled with
  | accounts account marks does =>
    obtain ⟨n, told, announced, hmarks, hr⟩ := Call.Vetted.rest account given
    rw [hmarks] at marks does
    obtain rfl : n = now := marks (.read n) (by simp)
    obtain ⟨d₀, hread, d₁, ⟨t, hcommit, rfl⟩, hrest⟩ := does
    obtain rfl : d₀ = d := hread
    rw [Transaction.commit_write_one keeps] at hcommit
    obtain ⟨-, rfl⟩ := Prod.mk.inj (Except.ok.inj hcommit)
    exact ⟨hr, Does.received announced (fun m mem => marks m (List.mem_append_right _ mem)) hrest⟩
  | refused made read refuses same =>
    cases made with
    | @put _ _ _ _ _ w' n given' hread =>
      obtain rfl := Except.ok.inj (given.symm.trans given')
      obtain rfl := read n hread
      rw [Transaction.commit_write_one keeps] at refuses
      cases refuses

/-! ## What a conditional insertion leaves -/

variable (given : Arguments.written c "put_if_absent" key value ttl policy = .ok w)
  (keeps : Transaction.constrained (w.row now) = .ok kept)
  (settled : Settled c (.putIfAbsent key value ttl policy) now ls d d' r)
include given keeps settled

/-- Where the key is vacant, a conditional insertion leaves what a put leaves. -/
theorem putIfAbsent_vacant (vacant : d.table.isVacant w.key.text now = true) :
    r = .ok (.lookup .miss) ∧
      d' = d.received (d.table.insert w.key.text kept) ls (.put w.key value) := by
  have hcommits := Transaction.commit_writeIfAbsent_vacant keeps vacant
  cases settled with
  | @accounts t _ account marks does =>
    have hinserts := Call.Vetted.rest account given
    generalize t.marks = ms at hinserts marks does
    -- The attempt has committed, and what it was answered is known.
    have hattempt {n : τ} {reply : Insertion τ} {rest : List (Mark τ)}
        (h : ms = .read n :: .committed (.writeIfAbsent w.key.text (w.row n) n) reply :: rest) :
        reply = .inserted ∧ Does (fun d d' => d' = d) rest
          { d with table := d.table.insert w.key.text kept } d' := by
      rw [h] at marks does
      obtain rfl : n = now := marks (.read n) (by simp)
      obtain ⟨d₀, hread, d₁, ⟨t, hcommit, rfl⟩, hrest⟩ := does
      obtain rfl : d₀ = d := hread
      rw [hcommits] at hcommit
      obtain ⟨rfl, rfl⟩ := Prod.mk.inj (Except.ok.inj hcommit)
      exact ⟨rfl, hrest⟩
    cases hinserts with
    | inserted left n announced =>
      exact ⟨rfl, Does.received announced (fun m mem => marks m (List.mem_append_right _ mem))
        (hattempt rfl).2⟩
    | present left n row => cases (hattempt rfl).1
    | neither left n rest => cases (hattempt rfl).1
  | refused made read refuses same =>
    cases made with
    | @putIfAbsent _ _ _ _ _ w' n given' hread =>
      obtain rfl := Except.ok.inj (given.symm.trans given')
      obtain rfl := read n hread
      rw [hcommits] at refuses
      cases refuses

/-- Where there is a live row, a conditional insertion leaves everything as it is. -/
theorem putIfAbsent_live {old : Row τ} (found : d.table.find? w.key.text = some old)
    (decided : old.IsDecided now) (live : (Condition.live old now).holds = true) : d' = d := by
  have hcommits := Transaction.commit_writeIfAbsent_live keeps found decided live
  cases settled with
  | @accounts t _ account marks does =>
    have hinserts := Call.Vetted.rest account given
    generalize t.marks = ms at hinserts marks does
    have hattempt {n : τ} {reply : Insertion τ} {rest : List (Mark τ)}
        (h : ms = .read n :: .committed (.writeIfAbsent w.key.text (w.row n) n) reply :: rest) :
        ∃ row, reply = .present row := by
      rw [h] at marks does
      obtain rfl : n = now := marks (.read n) (by simp)
      obtain ⟨d₀, hread, d₁, ⟨t, hcommit, rfl⟩, hrest⟩ := does
      obtain rfl : d₀ = d := hread
      rw [hcommits] at hcommit
      cases hrow : Transaction.readable old with
      | error f => rw [hrow] at hcommit; cases hcommit
      | ok row =>
        rw [hrow] at hcommit
        exact ⟨row, (Prod.mk.inj (Except.ok.inj hcommit)).1.symm⟩
    cases hinserts with
    | inserted left n announced => obtain ⟨row, hrow⟩ := hattempt rfl; cases hrow
    | present left n row => exact does.idle rfl
    | neither left n rest => obtain ⟨row, hrow⟩ := hattempt rfl; cases hrow
  | refused made read refuses same => exact same

end Settled

end

/-! ## What is found in a row -/

/-- What a row says of a key, as far as it can be read and decoded. -/
def Row.decoded (r : Row τ) (key : Key) : Except Failure Value :=
  (Transaction.readable r).bind fun r => Payload.decode r.payload.value none (some key)

/-- A row that cannot be read is no fault of the storage. -/
theorem Transaction.isForeign_of_readable {r : Row τ} {f : Failure}
    (h : Transaction.readable r = .error f) : f.isForeign = true := by
  unfold Transaction.readable at h
  split at h
  · obtain rfl := Except.error.inj h
    rfl
  · cases h

/-- Nothing is unsettled about a row that cannot be decoded. -/
theorem Row.cause_of_decoded {r : Row τ} {key : Key} {x : Complaint}
    (h : r.decoded key = .error (.complaint x)) : x.cause ≠ .unsettled := by
  unfold decoded at h
  cases hread : Transaction.readable r with
  | error f =>
    rw [hread] at h
    obtain rfl := Except.error.inj h
    cases Transaction.isForeign_of_readable hread
  | ok r' =>
    rw [hread] at h
    replace h : Payload.decode r'.payload.value none (some key) = _ := h
    obtain ⟨cause, hx, hcause⟩ := Payload.decode_error h
    obtain rfl := Failure.complaint.inj hx
    rintro rfl
    rcases hcause with hcause | ⟨_, _, hcause⟩ <;> cases hcause

/-! ## One attempt -/

/-- The transactions that a call attempts, in order. -/
def Host.attempts [Instant τ] [Delay τ] (h : Host τ σ) (c : Config τ) (call : Call) (s : σ) :
    List (Transaction τ) := (ExceptT.run (call.program c)).attempts h.handle s

theorem Operation.putIfAbsent_of_written [Instant τ] [Delay τ] {c : Config τ}
    {key value ttl policy : Value} {w : Written}
    (given : Arguments.written c "put_if_absent" key value ttl policy = .ok w) :
    Operation.putIfAbsent c key value ttl policy = (do
      Operation.startup c
      Operation.insertIfAbsent c w.key value w.payload w.ttl w.policy
        Operation.insertionAttempts) := by
  unfold Operation.putIfAbsent
  rw [Operation.checked_written, given]
  rfl

namespace Station.Steady

section
variable [Instant τ] {h : Station τ σ} {audience : σ → List ListenerId}

/-- A store starts at a steady station, without an attempt and with the desk as it is. -/
theorem startup (steady : h.Steady audience) (c : Config τ) (s : σ) :
    ∃ s', Operation.Carried h.handle (Operation.startup c) s [] (.ok ()) s' ∧
      h.desk s' = h.desk s ∧ h.clock s' = h.clock s := by
  have hfollows : Operation.Follows (fun _ _ => False) (fun _ _ => True) (fun _ _ => True)
      (Operation.startup c) ({} : Past τ) :=
    Operation.follows_startup c trivial fun _ => trivial
  have hquiet : Operation.Carried h.handle (Operation.startup c) s [] _ _ :=
    Operation.carried_quietly hfollows
  have htraces : Operation.Traces (fun _ _ => True) (fun t _ => t.marks = [])
      (fun t _ => ∃ g, .engine g ∈ t.troubles) (Operation.startup c) ({} : Trail τ) :=
    Operation.marked_startup c (fun t ht => ht) (fun t f g _ hg _ => ⟨g, hg⟩) {} rfl
  have hends := Program.Traces.run htraces h.handle s
  obtain ⟨ms, hms, hdoes⟩ := h.does (ExceptT.run (Operation.startup c)) s {}
  have htroubles := steady.isRefusal_trailAfter (ExceptT.run (Operation.startup c)) (s := s)
    (d := h.desk s) (t := {}) rfl fun y mem => nomatch mem
  have hkind := Program.kind_run steady.stays_kind (ExceptT.run (Operation.startup c))
    (⟨rfl, rfl⟩ : h.clock s = h.clock s ∧ audience s = audience s)
  generalize (ExceptT.run (Operation.startup c)).run h.handle s = after at hquiet hends hdoes hkind
  obtain ⟨r, s'⟩ := after
  cases r with
  | ok _ =>
    refine ⟨s', hquiet, ?_, hkind.1⟩
    replace hends :
        (Program.trailAfter h.handle (ExceptT.run (Operation.startup c)) s {}).marks = [] := hends
    rw [hends] at hms
    obtain rfl : ms = [] := (List.nil_append ms ▸ hms).symm
    exact hdoes
  | error f =>
    obtain ⟨g, hg⟩ := hends
    cases htroubles _ hg

theorem readClock (h : Station τ σ) (s : σ) :
    ∃ s', Operation.Carried h.handle Operation.readClock s [] (.ok (h.clock s)) s' ∧
      h.desk s' = h.desk s ∧ h.clock s' = h.clock s := by
  have hlawful := h.lawful .readClock s
  rw [h.reads s] at hlawful
  refine ⟨(h.handle .readClock s).2, ⟨rfl, ?_⟩, hlawful, h.clock_handle .readClock s⟩
  exact Prod.ext (h.reads s) rfl

end

section
variable [Instant τ] [Delay τ] {h : Station τ σ} {audience : σ → List ListenerId} {c : Config τ}
  {s : σ}

/-- A conditional insertion that is answered something else than neither is attempted once. -/
theorem insertion (steady : h.Steady audience) (w : Written) (value : Value) (left : Nat)
    {reply : Except Failure (Insertion τ)}
    (replied : (Transaction.commit (h.desk s).table
      (.writeIfAbsent w.key.text (w.row (h.clock s)) (h.clock s))).map (·.1) = reply)
    (settles : reply ≠ .ok .neither) (foreign : ∀ f, reply = .error f → f.isForeign = true) :
    ∃ r s', Operation.Carried h.handle
        (Operation.insertIfAbsent c w.key value w.payload w.ttl w.policy (left + 1)) s
        [.writeIfAbsent w.key.text (w.row (h.clock s)) (h.clock s)] r s' ∧
      (∀ f, reply = .error f → r = .error f) ∧
      ∀ row, reply = .ok (.present row) →
        r = (Payload.decode row.payload.value none (some w.key)).map .ofDecoded := by
  obtain ⟨s₁, hread, hdesk, -⟩ := readClock h s
  have hanswer := steady.attempts (.writeIfAbsent w.key.text (w.row (h.clock s)) (h.clock s)) s₁
  rw [hdesk, replied] at hanswer
  have htransact := Operation.carried_transact c "put_if_absent" (some w.key) (Prod.ext hanswer rfl)
    foreign
  unfold Operation.insertIfAbsent
  cases reply with
  | error f =>
    exact ⟨.error f, _, hread.bind_ok htransact.bind_error, fun f' hf => by cases hf; rfl,
      fun row hrow => by cases hrow⟩
  | ok reply =>
    cases reply with
    | inserted =>
      have hrest : Operation.Follows (fun _ _ => False) (fun _ _ => True) (fun _ _ => True) (do
          Operation.bookkeep (.record .puts 1)
          Operation.bookkeep .forgetSize
          Operation.log (Log.operation "put_if_absent" w.key.toValue [("inserted", .bool true)])
          Operation.announce (.put w.key value)
          return Lookup.miss) ({} : Past τ) := by
        simp only [Operation.follows_bind, Operation.follows_bookkeep, Operation.follows_log]
        exact Operation.follows_announce _ trivial
      refine ⟨_, _, hread.bind_ok (htransact.bind_ok (Operation.carried_quietly hrest)),
        fun f hf => ?_, fun row hrow => ?_⟩
      · cases hf
      · cases hrow
    | present row =>
      have hlog (entry : Log.Entry) (s : σ) : Operation.Carried h.handle
          (Operation.log entry) s [] (.ok ()) (h.handle (.log entry) s).2 := ⟨rfl, rfl⟩
      have hdecode (s : σ) : Operation.Carried h.handle (Lookup.ofDecoded <$>
          Operation.ofExcept (Payload.decode row.payload.value none (some w.key))) s []
          ((Payload.decode row.payload.value none (some w.key)).map .ofDecoded) s :=
        (Operation.carried_ofExcept _).map Lookup.ofDecoded
      simp only [map_eq_pure_bind] at hdecode
      refine ⟨_, _, hread.bind_ok (htransact.bind_ok ((hlog _ _).bind_ok (hdecode _))),
        fun f hf => ?_, fun row' hrow => ?_⟩
      · cases hf
      · obtain rfl := Insertion.present.inj (Except.ok.inj hrow)
        rfl
    | neither => exact absurd rfl settles

theorem putIfAbsent_once (steady : h.Steady audience) {key value ttl policy : Value} {w : Written}
    (given : Arguments.written c "put_if_absent" key value ttl policy = .ok w)
    {reply : Except Failure (Insertion τ)}
    (replied : (Transaction.commit (h.desk s).table
      (.writeIfAbsent w.key.text (w.row (h.clock s)) (h.clock s))).map (·.1) = reply)
    (settles : reply ≠ .ok .neither) (foreign : ∀ f, reply = .error f → f.isForeign = true) :
    h.attempts c (.putIfAbsent key value ttl policy) s =
        [.writeIfAbsent w.key.text (w.row (h.clock s)) (h.clock s)] ∧
      (∀ f, reply = .error f → (h.answer c (.putIfAbsent key value ttl policy) s).1 = .error f) ∧
      ∀ row, reply = .ok (.present row) → (h.answer c (.putIfAbsent key value ttl policy) s).1 =
        (Payload.decode row.payload.value none (some w.key)).map (.lookup ∘ .ofDecoded) := by
  obtain ⟨s₁, hstart, hdesk, hclock⟩ := steady.startup c s
  rw [← hdesk, ← hclock] at replied
  obtain ⟨r, s₂, hinsertion, hfails, hfinds⟩ :=
    steady.insertion (c := c) w value 2 replied settles foreign
  have hcall : Operation.Carried h.handle ((Call.putIfAbsent key value ttl policy).program c) s
      [.writeIfAbsent w.key.text (w.row (h.clock s)) (h.clock s)] (r.map .lookup) s₂ := by
    show Operation.Carried _ (Answer.lookup <$> Operation.putIfAbsent c key value ttl policy) ..
    rw [Operation.putIfAbsent_of_written given, ← hclock]
    exact (hstart.bind_ok hinsertion).map Answer.lookup
  have hanswer : (h.answer c (.putIfAbsent key value ttl policy) s).1 = r.map .lookup :=
    congrArg Prod.fst hcall.run
  rw [hanswer]
  refine ⟨hcall.attempts, fun f hf => ?_, fun row hrow => ?_⟩
  · rw [hfails f hf]
    rfl
  · rw [hfinds row hrow]
    cases Payload.decode row.payload.value none (some w.key) <;> rfl

end

end Station.Steady

/-! ## Known instants -/

/-- A row that is stamped at a known instant is kept as it is, if its lifetime is one that a table
keeps. -/
theorem Transaction.constrained_known {r : Row Number} {now : Number}
    (fits : r.ttl.all Instant.fits = true) (updated : r.updatedAt = now)
    (accessed : r.lastAccessed = some now) (known : now.isNaN = false) :
    Transaction.constrained r = .ok r := by
  have hknown : Instant.isUnknown r.updatedAt = false := by
    rw [updated]
    exact known
  have hstored : r.lastAccessed.bind Instant.stored = r.lastAccessed := by
    rw [accessed]
    exact Row.stored_known known
  unfold Transaction.constrained
  rw [fits, hknown, hstored]
  rfl

theorem Written.constrained_row {w : Written} {now : Number} (fits : w.ttl.all fitsWord = true)
    (known : now.isNaN = false) : Transaction.constrained (w.row now) = .ok (w.row now) := by
  refine Transaction.constrained_known ?_ rfl rfl known
  show (w.ttl.map Number.int).all Instant.fits = true
  rw [Option.all_map]
  exact fits

namespace Station

variable {h : Station Number σ} {audience : σ → List ListenerId} {c : Config Number} {s : σ}

/-- A conditional insertion settles with one attempt.  Whatever the table keeps under the key, if
its instants are known: either the key is not there, and the call answers a miss and leaves what a
put leaves, or the key is there, and the call answers what is in the row, or why it cannot be read,
and leaves everything as it is. -/
theorem putIfAbsent_settles_at_once (steady : h.Steady audience) {key value ttl policy : Value}
    {w : Written} (given : Arguments.written c "put_if_absent" key value ttl policy = .ok w)
    (fits : w.ttl.all fitsWord = true) (known : (h.clock s).isNaN = false)
    (rows : ∀ r, (h.desk s).table.find? w.key.text = some r → r.IsKnown) :
    let call := Call.putIfAbsent key value ttl policy
    let answer := (h.answer c call s).1
    let left := h.desk (h.answer c call s).2
    ∃ there : Bool, (h.answer c (.containsKey key) s).1 = .ok (.bool there) ∧
      h.attempts c call s = [.writeIfAbsent w.key.text (w.row (h.clock s)) (h.clock s)] ∧
      (∀ x, answer = .error (.complaint x) → x.cause ≠ .unsettled) ∧
      (answer = .ok (.lookup .miss) ↔ there = false) ∧
      (there = false → (h.answer c (.put key value ttl policy) s).1 = .ok .nothing ∧
        left = h.desk (h.answer c (.put key value ttl policy) s).2 ∧
        left.table.find? w.key.text = some (w.row (h.clock s))) ∧
      (there = true → left = h.desk s ∧
        ∃ row, (h.desk s).table.find? w.key.text = some row ∧
          answer = (row.decoded w.key).map (.lookup ∘ .ofDecoded)) := by
  intro call answer left
  obtain ⟨hkey, httl, hpolicy, hpayload⟩ := Arguments.written_ok given
  have hkeeps := Written.constrained_row fits known
  have hdecided := fun r hr => (rows r hr).isDecided known
  have hsettled := steady.settled c call s
  have hcontains := (steady.settled c (.containsKey key) s).containsKey
    (Arguments.key_accepted hkey "contains_key")
  rw [Table.hasLive_eq hdecided] at hcontains
  refine ⟨_, hcontains, ?_⟩
  cases hvacant : (h.desk s).table.isVacant w.key.text (h.clock s) with
  | true =>
    have hput : Arguments.written c "put" key value ttl policy = .ok w :=
      Arguments.written_of (Arguments.key_accepted hkey "put")
        (Arguments.ttlOr_accepted httl _ _) (Arguments.policy_accepted hpolicy _ _)
        (Arguments.payload_accepted hpayload _)
    have hcommit := Transaction.commit_writeIfAbsent_vacant hkeeps hvacant
    obtain ⟨honce, -, -⟩ := steady.putIfAbsent_once given (congrArg _ hcommit) nofun nofun
    obtain ⟨hanswer, hleft⟩ := hsettled.putIfAbsent_vacant given hkeeps hvacant
    obtain ⟨hdone, hreceived⟩ :=
      (steady.settled c (.put key value ttl policy) s).put_received hput hkeeps
    replace hanswer : answer = .ok (.lookup .miss) := hanswer
    rw [hanswer]
    refine ⟨honce, nofun, by simp, fun _ => ⟨hdone, hleft.trans hreceived.symm, ?_⟩, nofun⟩
    show (h.desk (h.answer c call s).2).table.find? w.key.text = _
    rw [hleft]
    exact Table.find?_insert_self _ _ _
  | false =>
    obtain ⟨old, hfound, hold⟩ : ∃ old, (h.desk s).table.find? w.key.text = some old ∧
        (Condition.expired old (h.clock s)).holds = false := by
      unfold Table.isVacant at hvacant
      cases hfind : (h.desk s).table.find? w.key.text with
      | none => rw [hfind] at hvacant; cases hvacant
      | some old => exact ⟨old, rfl, by rwa [hfind] at hvacant⟩
    have hlive : (Condition.live old (h.clock s)).holds = true := by
      rw [hdecided old hfound, hold]
      rfl
    have hleft := hsettled.putIfAbsent_live given hkeeps hfound (hdecided old hfound) hlive
    have hreply : (Transaction.commit (h.desk s).table (.writeIfAbsent w.key.text
        (w.row (h.clock s)) (h.clock s))).map (·.1) = (Transaction.readable old).map .present := by
      rw [Transaction.commit_writeIfAbsent_live hkeeps hfound (hdecided old hfound) hlive]
      cases Transaction.readable old <;> rfl
    obtain ⟨honce, hfails, hfinds⟩ := steady.putIfAbsent_once given hreply
      (by cases Transaction.readable old <;> nofun) fun f hf => by
        cases hread : Transaction.readable old with
        | ok row => rw [hread] at hf; cases hf
        | error f' =>
          rw [hread] at hf
          obtain rfl := Except.error.inj hf
          exact Transaction.isForeign_of_readable hread
    have hanswer : answer = (old.decoded w.key).map (.lookup ∘ .ofDecoded) := by
      unfold Row.decoded
      cases hread : Transaction.readable old with
      | ok row => exact hfinds row (by rw [hread]; rfl)
      | error f => exact hfails f (by rw [hread]; rfl)
    rw [hanswer]
    refine ⟨honce, fun x hx => ?_, ⟨fun hmiss => ?_, nofun⟩, nofun,
      fun _ => ⟨hleft, old, hfound, rfl⟩⟩
    · cases hdecoded : old.decoded w.key with
      | ok v => rw [hdecoded] at hx; cases hx
      | error f =>
        rw [hdecoded] at hx
        obtain rfl := Except.error.inj hx
        exact Row.cause_of_decoded hdecoded
    · cases hdecoded : old.decoded w.key with
      | error f => rw [hdecoded] at hmiss; cases hmiss
      | ok v =>
        rw [hdecoded] at hmiss
        exact absurd (Answer.lookup.inj (Except.ok.inj hmiss)) (Lookup.ofDecoded_ne_miss v)

/-- A desk at which a row was found that was written at nothing with a lifetime of ten seconds, and
that nobody has read since. -/
def aged (p : Cell) : Desk Number :=
  ⟨Table.empty.insert "k" ⟨p, .float 0, some (.int 10), Policy.sliding.word, none⟩, {}, {}, []⟩

/-- The row is replaced after half a minute, and found after ten seconds. -/
theorem putIfAbsent_settles_aged :
    let h := attended (τ := Number) []
    let c : Config Number := ⟨false, true, false, none, .int 5, ⟨3, .int 1, .int 2, .int 30⟩, true⟩
    let call := Call.putIfAbsent (.str "k") (.int 2) .none (.str "ABSOLUTE")
    let old := Cell.document (.object [("v", .int 1)])
    (h.answer c call (.float 30.5, aged old)).1 = .ok (.lookup .miss) ∧
      (h.answer c call (.float 10, aged old)).1 = .ok (.lookup (.hit (.int 1))) ∧
      (h.desk (h.answer c call (.float 10, aged old)).2).table = (aged old).table := by
  intro h c call old
  have given : Arguments.written c "put_if_absent" (.str "k") (.int 2) .none (.str "ABSOLUTE") =
      .ok ⟨.plain "k", none, .absolute, .object [("v", .int 2)]⟩ := rfl
  have rows (now : Number) (r : Row Number)
      (hr : (h.desk (now, aged old)).table.find? "k" = some r) : r.IsKnown := by
    obtain rfl := Option.some.inj hr
    exact ⟨rfl, rfl, rfl⟩
  obtain ⟨there, hthere, -, -, hmiss, -, -⟩ := putIfAbsent_settles_at_once (steady_attended [])
    (s := (.float 30.5, aged old)) given rfl (by decide) (rows _)
  obtain ⟨there', hthere', -, -, -, -, hfound⟩ := putIfAbsent_settles_at_once (steady_attended [])
    (s := (.float 10, aged old)) given rfl (by decide) (rows _)
  have hgone : (h.answer c (.containsKey (.str "k")) (.float 30.5, aged old)).1 =
      .ok (.bool false) := rfl
  have hkept : (h.answer c (.containsKey (.str "k")) (.float 10, aged old)).1 =
      .ok (.bool true) := rfl
  obtain rfl := Value.bool.inj (Answer.value.inj (Except.ok.inj (hthere.symm.trans hgone)))
  obtain rfl := Value.bool.inj (Answer.value.inj (Except.ok.inj (hthere'.symm.trans hkept)))
  obtain ⟨hleft, row, hrow, hanswer⟩ := hfound rfl
  obtain rfl := Option.some.inj hrow
  exact ⟨hmiss.2 rfl, hanswer, congrArg Desk.table hleft⟩

end Station

end ExpiringStore
