import ExpiringStore.Proofs.Interleaving.Loss
import ExpiringStore.Proofs.Table.Reply

/-!
# Refreshes

A lookup reads the clock before it refreshes the last access of a sliding entry, and the refresh
asks only for the key.  It may meet a row that was stamped after the reading, and then it sets the
last access back.  If no refresh is late in this sense, last accesses never go back, and a sliding
lifetime runs its course.

    a refresh sets a row back   ↔   its reading lies before the last access that it meets
    no refresh is late          →   updatedAt ≤ lastAccessed, and a sliding entry of ttl seconds
                                    stamped at n is live up to n + ttl
-/

namespace ExpiringStore

variable {τ : Type} [MonotoneInstant τ]

namespace Row

/-- Has a row been stamped with a sliding lifetime of so many seconds from an instant on? -/
def isStamped [DecidableEq τ] (r : Row τ) (n : τ) (ttl : Int) : Bool :=
  r.policy == Policy.sliding.word && r.ttl == some (Instant.ofSeconds ttl) && r.updatedAt == n &&
    r.lastAccessed == some n

/-- The last access is no earlier than the last write. -/
def Ordered (r : Row τ) : Prop :=
  ∃ accessed, r.lastAccessed = some accessed ∧ r.updatedAt ≤ accessed

/-- A sliding lifetime of so many seconds that runs from an instant on, or from a later one. -/
structure Slides (r : Row τ) (n : τ) (ttl : Int) : Prop where
  policy : r.policy = Policy.sliding.word
  ttl : r.ttl = some (Instant.ofSeconds ttl)
  accessed : ∃ accessed, r.lastAccessed = some accessed ∧ n ≤ accessed

theorem slides_of_isStamped [DecidableEq τ] {r : Row τ} {n : τ} {ttl : Int}
    (h : r.isStamped n ttl = true) :
    r.Slides n ttl := by
  simp only [isStamped, Bool.and_eq_true, beq_iff_eq] at h
  obtain ⟨⟨⟨hpolicy, httl⟩, -⟩, haccessed⟩ := h
  exact ⟨hpolicy, httl, n, haccessed, le_rfl⟩

/-- A sliding entry is live up to the end of its lifetime. -/
theorem Slides.live {r : Row τ} {n : τ} {ttl : Int} (h : r.Slides n ttl) {now : τ}
    (hnow : now ≤ Instant.plus n (Instant.ofSeconds ttl)) : r.isExpired now = false := by
  obtain ⟨accessed, ha, hn⟩ := h.accessed
  rw [isExpired_eq_false_iff_of_ttl h.ttl, start_eq, if_pos h.policy, ha]
  exact hnow.trans (MonotoneInstant.plus_le_plus hn _)

end Row

namespace Commit

/-- Is a commit a refresh with a reading that lies before the last access of the row it meets? -/
def isLate (c : Commit τ) : Bool :=
  match c.transaction with
  | .touch key now =>
    ((c.found.find? key).bind (·.lastAccessed)).any fun accessed => Instant.before now accessed
  | _ => false

/-- Does a commit, a refresh, set the last access of a row back? -/
def SetsBack (c : Commit τ) : Prop :=
  ∃ key now t before after, c.transaction = .touch key now ∧
    c.transaction.commit c.found = .ok (c.reply, t) ∧
    (c.found.find? key).bind (·.lastAccessed) = some before ∧
    (t.find? key).bind (·.lastAccessed) = some after ∧ after < before

/-- Does a commit stamp the entry of a key with a sliding lifetime of so many seconds from an
instant on? -/
def stamps [DecidableEq τ] (c : Commit τ) (key : String) (n : τ) (ttl : Int) : Bool :=
  match c.transaction, c.reply with
  | .write rows, _ => (Transaction.lastRow key rows).any (·.isStamped n ttl)
  | .writeIfAbsent k row _, .inserted => key == k && row.isStamped n ttl
  | .extend k ttl' policy now, true => key == k && ttl' == ttl && policy == .sliding && now == n
  | _, _ => false

/-- Does a commit remove the entry of a key on request, write it anew or renew its lifetime? -/
def rewrites (c : Commit τ) (key : String) : Bool :=
  match c.transaction, c.reply with
  | .write rows, _ => (Transaction.lastRow key rows).isSome
  | .writeIfAbsent k _ _, .inserted => key == k
  | .extend k _ _ _, true => key == k
  | a, _ => a.removes key

end Commit

namespace Call

/-- What a call writes, it stamps with an earlier reading. -/
theorem Makes.stamped_of_write {c : Config τ} {call : Call} {deeds : List (Deed τ)}
    {rows : List (String × Row τ)} (h : call.Makes c deeds (.write rows)) {key : String}
    {row : Row τ} (hrow : Transaction.lastRow key rows = some row) :
    row.lastAccessed = some row.updatedAt := by
  rw [Transaction.lastRow_eq] at hrow
  obtain ⟨q, hq, rfl⟩ := Option.map_eq_some_iff.1 hrow
  have hmem : q ∈ rows := List.mem_reverse.1 (List.mem_of_find?_eq_some hq)
  cases h with
  | put given read =>
    obtain rfl := List.mem_singleton.1 hmem
    rfl
  | putAll given read =>
    obtain ⟨e, -, rfl⟩ := List.mem_map.1 hmem
    rfl

theorem Makes.stamped_of_writeIfAbsent {c : Config τ} {call : Call} {deeds : List (Deed τ)}
    {k : String} {row : Row τ} {now : τ} (h : call.Makes c deeds (.writeIfAbsent k row now)) :
    .read now ∈ deeds ∧ row.lastAccessed = some row.updatedAt := by
  cases h with
  | putIfAbsent given read => exact ⟨read, rfl⟩

end Call

namespace System

variable {s s' : System τ}

/-- A refresh sets a row back exactly if it is late. -/
theorem Sound.setsBack_iff (h : Sound s) {c : Commit τ} (mem : c ∈ s.commits) :
    c.SetsBack ↔ c.isLate = true := by
  obtain ⟨-, t, hdone⟩ := h.done c mem
  obtain ⟨i, clock, found, a, r⟩ := c
  -- What a refresh leaves of a last access is its reading.
  have hafter : ∀ {key : String} {now : τ} {t : Table τ},
      (Transaction.touch key now).commit found = .ok ((), t) →
      (t.find? key).bind (·.lastAccessed) = (found.find? key).map fun _ => now := by
    intro key now t hdone
    rw [Transaction.find?_commit hdone key]
    show ((found.find? key).map _).bind _ = _
    cases found.find? key with
    | none => rfl
    | some row => simp
  constructor
  · rintro ⟨key, now, t', before, after, rfl, hdone', hbefore, hafter', hlt⟩
    show ((found.find? key).bind (·.lastAccessed)).any _ = true
    rw [hafter hdone'] at hafter'
    obtain ⟨row, -, rfl⟩ := Option.map_eq_some_iff.1 hafter'
    rw [hbefore]
    exact (OrderedInstant.before_iff _ _).2 hlt
  · intro hlate
    cases a with
    | touch key now =>
      replace hlate : ((found.find? key).bind (·.lastAccessed)).any _ = true := hlate
      obtain ⟨accessed, haccessed, hlt⟩ := (Option.any_eq_true ..).1 hlate
      refine ⟨key, now, t, accessed, now, rfl, hdone, haccessed, ?_,
        (OrderedInstant.before_iff _ _).1 hlt⟩
      obtain ⟨row, hrow, -⟩ := Option.bind_eq_some_iff.1 haccessed
      rw [hafter hdone, hrow]
      rfl
    | _ => cases hlate

/-- The row of a key after a commit came about by its transaction. -/
theorem Takes.gives {c : Commit τ} {caller : Caller τ} (h : Takes s c caller s') {key : String}
    {row : Row τ} (hfound : s'.table.find? key = some row) :
    c.transaction.Gives key (s.table.find? key) row :=
  Transaction.gives_of_onRow (Transaction.find?_commit h.done key ▸ hfound)

/-- A refresh that is not late sets no last access back. -/
theorem Takes.le_of_not_late {c : Commit τ} {caller : Caller τ} (h : Takes s c caller s')
    (hlate : c.isLate = false) {key : String} {now : τ} (ha : c.transaction = .touch key now)
    {row : Row τ} (hfound : s.table.find? key = some row) {accessed : τ}
    (haccessed : row.lastAccessed = some accessed) : accessed ≤ now := by
  have hlate : ((c.found.find? key).bind (·.lastAccessed)).any
      (Instant.before now) = false := by
    unfold Commit.isLate at hlate
    rw [ha] at hlate
    exact hlate
  rw [h.found, hfound, Option.bind_some, haccessed] at hlate
  exact OrderedInstant.before_eq_false_iff.1 hlate

/-- A commit that is no late refresh keeps last accesses no earlier than last writes. -/
theorem Takes.ordered {c : Commit τ} {caller : Caller τ} (h : Takes s c caller s')
    (hlate : c.isLate = false) (ih : ∀ key row, s.table.find? key = some row → row.Ordered)
    {key : String} {row : Row τ} (hfound : s'.table.find? key = some row) : row.Ordered := by
  have hmade := h.made
  have hgives := h.gives hfound
  generalize ha : c.transaction = a at hmade hgives
  generalize hold : s.table.find? key = old at hgives
  cases hgives with
  | same a row => exact ih key row hold
  | written old last => exact ⟨_, hmade.stamped_of_write last, le_rfl⟩
  | inserted absent => exact ⟨_, hmade.stamped_of_writeIfAbsent.2, le_rfl⟩
  | touched row now =>
    obtain ⟨accessed, haccessed, hle⟩ := ih key row hold
    exact ⟨now, rfl, hle.trans (h.le_of_not_late hlate ha hold haccessed)⟩
  | extended ttl policy live => exact ⟨_, rfl, le_rfl⟩

/-- A commit that stamps an entry leaves it with the lifetime that it stamps. -/
theorem Takes.stamps [DecidableEq τ] {c : Commit τ} {caller : Caller τ} (h : Takes s c caller s')
    {key : String}
    {n : τ} {ttl : Int} (hstamps : c.stamps key n ttl = true) :
    ∃ row, s'.table.find? key = some row ∧ row.Slides n ttl := by
  have hdone := h.done
  have hrow := Transaction.find?_commit hdone key
  obtain ⟨i, clock, found, a, r⟩ := c
  cases a with
  | write rows =>
    obtain ⟨row, hlast, hrow'⟩ := (Option.any_eq_true ..).1 hstamps
    refine ⟨row, hrow.trans ?_, Row.slides_of_isStamped hrow'⟩
    show (Transaction.lastRow key rows).or _ = _
    rw [hlast, Option.some_or]
  | writeIfAbsent k row now =>
    cases r with
    | inserted =>
      replace hstamps : (key == k && row.isStamped n ttl) = true := hstamps
      obtain ⟨rfl, hrow'⟩ : key = k ∧ row.isStamped n ttl = true := by simpa using hstamps
      refine ⟨row, hrow.trans (if_pos ⟨rfl, ?_⟩), Row.slides_of_isStamped hrow'⟩
      rcases Transaction.commit_writeIfAbsent hdone with ⟨-, hall⟩ | ⟨old, hr, -⟩
      · exact hall
      · cases hr
    | present | neither => cases hstamps
  | extend k ttl' policy now =>
    cases r with
    | true =>
      replace hstamps :
        (key == k && ttl' == ttl && policy == .sliding && now == n) = true := hstamps
      obtain ⟨⟨⟨rfl, rfl⟩, rfl⟩, rfl⟩ : ((key = k ∧ ttl' = ttl) ∧ policy = .sliding) ∧ now = n := by
        simpa using hstamps
      have hlive := (Transaction.reply_extend hdone).symm
      obtain ⟨row, hfound, hlive⟩ := (Option.any_eq_true ..).1 hlive
      refine ⟨Transaction.renewed row ttl' .sliding now, hrow.trans ?_, rfl, rfl, now, rfl, le_rfl⟩
      show (s.table.find? key).map _ = _
      rw [hfound, Option.map_some, if_pos ⟨rfl, by simpa using hlive⟩]
    | false => cases hstamps
  | _ => cases hstamps

/-- While its lifetime has not run out, a sliding entry stays until it is rewritten or removed on
request: sweeps and lookups find it live, and refreshes that are not late do it no harm. -/
theorem Takes.slides {c : Commit τ} {caller : Caller τ} (h : Takes s c caller s')
    (hlate : c.isLate = false) {key : String} (hkeep : c.rewrites key = false) {n : τ} {ttl : Int}
    (hclock : s.clock ≤ Instant.plus n (Instant.ofSeconds ttl)) {row : Row τ}
    (hfound : s.table.find? key = some row) (hslides : row.Slides n ttl) :
    ∃ row', s'.table.find? key = some row' ∧ row'.Slides n ttl := by
  have live : ∀ now, .read now ∈ caller.past.deeds → row.isExpired now = false := fun now read =>
    hslides.live ((h.readings now read).trans hclock)
  obtain ⟨i, clock, found, a, r⟩ := c
  cases hfound' : s'.table.find? key with
  | none =>
    have hnone := Transaction.find?_commit h.done key
    rw [hfound', hfound] at hnone
    rcases Transaction.onRow_eq_none hnone.symm with hremoves | ⟨now, ha, hexpired⟩
    · replace hremoves : a.removes key = true := hremoves
      refine absurd ?_ (ne_true_of_eq_false hkeep)
      cases a <;> first | exact hremoves | cases hremoves
    · rw [live now (h.made.read_of_removal ha)] at hexpired
      cases hexpired
  | some row' =>
    refine ⟨row', rfl, ?_⟩
    have hgives : a.Gives key (s.table.find? key) row' := h.gives hfound'
    rw [hfound] at hgives
    cases hgives with
    | same a row => exact hslides
    | written old last =>
      exact absurd (Option.isSome_iff_exists.2 ⟨_, last⟩) (ne_true_of_eq_false hkeep)
    | inserted absent =>
      rw [Option.all_some, live _ h.made.stamped_of_writeIfAbsent.1] at absent
      cases absent
    | touched row now =>
      obtain ⟨accessed, haccessed, hn⟩ := hslides.accessed
      exact ⟨hslides.policy, hslides.ttl, now, rfl,
        hn.trans (h.le_of_not_late hlate rfl hfound haccessed)⟩
    | extended ttl' policy hlive =>
      have hr := Transaction.reply_extend h.done
      rw [hfound, Option.any_some, hlive] at hr
      obtain rfl : r = true := hr
      exact absurd (beq_self_eq_true key) (ne_true_of_eq_false hkeep)

variable [Delay τ]

/-- In a run without late refreshes, last accesses are no earlier than last writes. -/
theorem Reachable.ordered (h : Reachable .empty s) (hlate : ∀ c ∈ s.commits, c.isLate = false) :
    ∀ key row, s.table.find? key = some row → row.Ordered := by
  refine h.induct (P := fun s => (∀ c ∈ s.commits, c.isLate = false) →
      ∀ key row, s.table.find? key = some row → row.Ordered)
    (fun clock _ key row hfound => ?_) (fun s c caller s' _ ih htakes hlate key row hfound => ?_)
    (fun s s' _ ih hleaves hlate key row hfound => ?_) hlate
  · cases hfound
  · rw [htakes.commits] at hlate
    refine htakes.ordered (hlate c (by simp)) (ih fun d hd => hlate d ?_) hfound
    exact List.mem_append_left _ hd
  · rw [hleaves.commits] at hlate
    exact ih hlate key row (hleaves.table ▸ hfound)

/-- In a run without late refreshes, an entry that was stamped and neither rewritten nor removed on
request since keeps its lifetime while that has not run out.  The induction is on the run; the step
that stamps the entry is its base. -/
theorem Reachable.slides [DecidableEq τ] {t : Table τ} (h : Reachable t s)
    (hlate : ∀ c ∈ s.commits, c.isLate = false) {i : Nat} {c : Commit τ}
    (hi : s.commits[i]? = some c) {key : String} {n : τ} {ttl : Int}
    (hstamps : c.stamps key n ttl = true)
    (hkeep : ∀ d ∈ s.commits.drop (i + 1), d.rewrites key = false)
    (hclock : s.clock ≤ Instant.plus n (Instant.ofSeconds ttl)) :
    ∃ row, s.table.find? key = some row ∧ row.Slides n ttl := by
  refine h.induct (P := fun s => (∀ c ∈ s.commits, c.isLate = false) → s.commits[i]? = some c →
      (∀ d ∈ s.commits.drop (i + 1), d.rewrites key = false) →
      s.clock ≤ Instant.plus n (Instant.ofSeconds ttl) →
      ∃ row, s.table.find? key = some row ∧ row.Slides n ttl)
    (fun clock _ hi => ?_) (fun s d caller s' _ ih htakes hlate hi hkeep hclock => ?_)
    (fun s s' _ ih hleaves hlate hi hkeep hclock => ?_) hlate hi hkeep hclock
  · simp [start] at hi
  · rw [htakes.commits] at hlate hi hkeep
    rw [htakes.clock] at hclock
    rcases Nat.lt_trichotomy i s.commits.length with hlt | heq | hgt
    · rw [List.getElem?_append_left hlt] at hi
      rw [List.drop_append_of_le_length hlt] at hkeep
      obtain ⟨row, hfound, hslides⟩ := ih (fun e he => hlate e (List.mem_append_left _ he)) hi
        (fun e he => hkeep e (List.mem_append_left _ he)) hclock
      exact htakes.slides (hlate d (by simp)) (hkeep d (by simp)) hclock hfound hslides
    · rw [heq, List.getElem?_concat_length] at hi
      obtain rfl := Option.some.inj hi
      exact htakes.stamps hstamps
    · rw [List.getElem?_eq_none (by simp; omega)] at hi
      cases hi
  · rw [hleaves.commits] at hlate hi hkeep
    rw [hleaves.table]
    exact ih hlate hi hkeep (hleaves.clock.trans hclock)

/-- No refresh sets a last access back exactly if no refresh is late, and then last accesses are no
earlier than last writes, and a sliding entry stays live for the whole of its lifetime unless it is
rewritten or removed on request. -/
theorem refresh_never_shortens_iff [DecidableEq τ] (h : Reachable .empty s) :
    ((∀ c ∈ s.commits, ¬ c.SetsBack) ↔ ∀ c ∈ s.commits, c.isLate = false) ∧
    ((∀ c ∈ s.commits, c.isLate = false) →
      (∀ key row, s.table.find? key = some row →
        ∃ accessed, row.lastAccessed = some accessed ∧ row.updatedAt ≤ accessed) ∧
      ∀ i c key n ttl, s.commits[i]? = some c → c.stamps key n ttl = true →
        (∀ d ∈ s.commits.drop (i + 1), d.rewrites key = false) →
        s.clock ≤ Instant.plus n (Instant.ofSeconds ttl) →
        ∃ row, s.table.find? key = some row ∧ row.isExpired s.clock = false) := by
  refine ⟨forall₂_congr fun c mem => ?_, fun hlate => ?_⟩
  · rw [h.sound.setsBack_iff mem, Bool.not_eq_true]
  refine ⟨h.ordered hlate, fun i c key n ttl hi hstamps hkeep hclock => ?_⟩
  obtain ⟨row, hfound, hslides⟩ := h.slides hlate hi hstamps hkeep hclock
  exact ⟨row, hfound, hslides.live hclock⟩

/-- An entry of ten seconds is written at 1000 and looked up at 1005, and the lookup refreshes it
before it is written again at 1008. -/
def inTurn : System Int :=
  play [
    .call .plain (.put (.str "k") (.str "old") (.int 10) Policy.sliding.toValue), .act 0 10,
    .tick 1005, .call .plain (.get (.str "k")), .act 1 10,
    .tick 1008, .call .plain (.put (.str "k") (.str "fresh") (.int 10) Policy.sliding.toValue),
    .act 2 10, .tick 1016] (start .empty 1000)

theorem refresh_never_shortens_inTurn :
    (∀ c ∈ inTurn.commits, ¬ c.SetsBack) ∧ inTurn.clock = 1016 ∧
      ∃ row, inTurn.table.find? "k" = some row ∧ row.isExpired inTurn.clock = false := by
  have hreach : Reachable .empty inTurn := play_reachable _ _ _
  have hlate : ∀ c ∈ inTurn.commits, c.isLate = false := by decide +kernel
  obtain ⟨hiff, hslides⟩ := refresh_never_shortens_iff hreach
  refine ⟨hiff.2 hlate, by decide +kernel, ?_⟩
  obtain ⟨c, hc⟩ : ∃ c, inTurn.commits[3]? = some c :=
    Option.isSome_iff_exists.1 (by decide +kernel)
  have hstamps : (inTurn.commits[3]?).all (·.stamps "k" 1008 10) = true := by decide +kernel
  rw [hc] at hstamps
  exact (hslides hlate).2 3 c "k" 1008 10 hc hstamps (by decide +kernel) (by decide +kernel)

/-- The same, but the entry is written again before the lookup refreshes it. -/
def overtaken : System Int :=
  play [
    .call .plain (.put (.str "k") (.str "old") (.int 10) Policy.sliding.toValue), .act 0 10,
    .tick 1005, .call .plain (.get (.str "k")), .act 1 3,
    .tick 1008, .call .plain (.put (.str "k") (.str "fresh") (.int 10) Policy.sliding.toValue),
    .act 2 10, .act 1 10, .tick 1016] (start .empty 1000)

/-- A late refresh sets the last access before the last write, and the entry expires early. -/
theorem late_refresh_shortens :
    ∃ s : System Int, Reachable .empty s ∧ (∃ c ∈ s.commits, c.SetsBack) ∧
      (∃ row accessed, s.table.find? "k" = some row ∧ row.lastAccessed = some accessed ∧
        accessed < row.updatedAt ∧ row.isExpired s.clock = true) ∧
      ∃ c, s.commits[2]? = some c ∧ c.stamps "k" 1008 10 = true ∧
        (∀ d ∈ s.commits.drop 3, d.rewrites "k" = false) ∧
        s.clock ≤ Instant.plus 1008 (Instant.ofSeconds 10) := by
  have hreach : Reachable .empty overtaken := play_reachable _ _ _
  refine ⟨overtaken, hreach, ?_, ?_, ?_⟩
  · obtain ⟨c, mem, hlate⟩ : ∃ c ∈ overtaken.commits, c.isLate = true := by decide +kernel
    exact ⟨c, mem, (hreach.sound.setsBack_iff mem).2 hlate⟩
  · have hrow : (overtaken.table.find? "k").map (fun r => (r.updatedAt, r.lastAccessed,
        r.isExpired overtaken.clock)) = some (1008, some 1005, true) := by decide +kernel
    obtain ⟨row, hfound, hrow⟩ := Option.map_eq_some_iff.1 hrow
    obtain ⟨hupdated, haccessed, hexpired⟩ : row.updatedAt = 1008 ∧ row.lastAccessed = some 1005 ∧
        row.isExpired overtaken.clock = true := by simpa using hrow
    exact ⟨row, 1005, hfound, haccessed, by rw [hupdated]; decide, hexpired⟩
  · obtain ⟨c, hc⟩ : ∃ c, overtaken.commits[2]? = some c :=
      Option.isSome_iff_exists.1 (by decide +kernel)
    have hstamps : (overtaken.commits[2]?).all (·.stamps "k" 1008 10) = true := by decide +kernel
    rw [hc] at hstamps
    exact ⟨c, hc, hstamps, by decide +kernel, by decide +kernel⟩

end System

end ExpiringStore
