import ExpiringStore.Proofs.Codec.Payload
import ExpiringStore.Proofs.Desk.ShownReads

/-!
# What writes and removals show

    a write or a removal that is carried out shows what is live (shown_put, …, shown_cleanupExpired)
    a call that the storage refuses shows it as well               (shown_refused)
-/

namespace ExpiringStore.Call

variable {τ : Type} [OrderedInstant τ]

variable {c : Config τ} {now : τ} {t : Trail τ} {d d' : Desk τ} {ms : List (Mark τ)}
  {r : Except Failure Answer}

/-! ## What is counted, and the listeners told of it -/

/-- Entries are counted, the size is forgotten and the listeners are told. -/
theorem Carried.counted {counter : Statistics.Counter} {n : Int} {es : List Event}
    (h : Carried now (.noted (.record counter n) :: .noted .forgetSize :: ms) d d')
    (announced : Announced es ms) :
    d'.table = d.table ∧ d'.statistics.score = d.statistics.score + counter.score n := by
  obtain ⟨heard, rfl⟩ := h.noted.noted.announced announced
  exact ⟨rfl, Statistics.score_record ..⟩

/-- Removed keys are counted, if there are any, and no counter of these is for them. -/
theorem Removed.counted {keys : List String} (h : Removed keys ms) (hc : Carried now ms d d') :
    d'.table = d.table ∧ d'.statistics.score = d.statistics.score := by
  cases h with
  | none =>
    obtain rfl := hc.idle rfl
    exact ⟨rfl, rfl⟩
  | some any announced =>
    obtain ⟨htable, hscore⟩ := Carried.counted hc announced
    exact ⟨htable, by rw [hscore]; exact Score.add_nothing _⟩

/-! ## Writes -/

theorem shown_put {key value ttl policy : Value} (hc : Carried now t.marks d d')
    (h : Accounts c (.put key value ttl policy) t r) :
    Shown c (.put key value ttl policy) now d d' r := by
  refine Vetted.shown h hc (fun f hf => ⟨by simp only [acts, hf]; rfl,
    by simp only [onLive, hf]; rfl⟩) fun w hw hrest => ?_
  obtain ⟨n, told, announced, hmarks, rfl⟩ := hrest
  rw [hmarks] at hc
  obtain ⟨rfl, hc⟩ := Carried.read hc
  obtain ⟨t', hdone, hc⟩ := Carried.committed hc
  obtain ⟨htable, hscore⟩ := Carried.counted hc announced
  have hstorable := Transaction.storable_of_commit rfl rfl hdone
  have hanswer : (Call.put key value ttl policy).onLive c n (d.table.live n) = .ok .nothing := by
    simp only [onLive, hw, Except.bind, kept, hstorable, if_true]
  have htally : (Call.put key value ttl policy).tally c n (d.table.live n) =
      { written := 1 } := by
    unfold tally
    rw [hanswer]
  refine .of_commit (by simp only [acts, hw]; rfl) hstorable
    (Transaction.isAt_of_timeless rfl rfl) (by rw [htable]; exact hdone)
    (by rw [hscore, htally]; rfl) fun _ => hanswer.symm

theorem shown_putAll {entries ttl policy : Value} (hc : Carried now t.marks d d')
    (h : Accounts c (.putAll entries ttl policy) t r) :
    Shown c (.putAll entries ttl policy) now d d' r := by
  refine Vetted.shown h hc (fun f hf => ⟨by simp only [acts, hf]; rfl,
    by simp only [onLive, hf]; rfl⟩) fun w hw hrest => ?_
  have hacts : (Call.putAll entries ttl policy).acts c now (d.table.live now) =
      some (.write (w.rows now)) := by
    simp only [acts, hw]
    rfl
  have hanswer (hstorable : Transaction.isStorable (.write (w.rows now)) = true) :
      (Call.putAll entries ttl policy).onLive c now (d.table.live now) =
        .ok (.count w.entries.length) := by
    simp only [onLive, hw, Except.bind, kept, hstorable, if_true]
  have htally (hstorable : Transaction.isStorable (.write (w.rows now)) = true) :
      (Call.putAll entries ttl policy).tally c now (d.table.live now) =
        { written := w.entries.length } := by
    unfold tally
    rw [hanswer hstorable]
    rfl
  split at hrest
  · obtain ⟨n, told, announced, hmarks, rfl⟩ := hrest
    rw [hmarks] at hc
    obtain ⟨rfl, hc⟩ := Carried.read hc
    obtain ⟨t', hdone, hc⟩ := Carried.committed hc
    obtain ⟨htable, hscore⟩ := Carried.counted hc announced
    have hmade : (Call.putAll entries ttl policy).Makes c [.read n] (.write (w.rows n)) :=
      .putAll hw List.mem_cons_self
    have hstorable := Transaction.storable_of_commit hmade.isLegible rfl hdone
    exact .of_commit hacts hstorable (Transaction.isAt_of_timeless rfl rfl)
      (by rw [htable]; exact hdone) (by rw [hscore, htally hstorable]; rfl)
      fun _ => (hanswer hstorable).symm
  · next hfalsy =>
    obtain ⟨hmarks, rfl⟩ := hrest
    rw [hmarks] at hc
    obtain rfl := hc.idle rfl
    have hnone := Arguments.writtenMany_falsy hw (eq_false_of_ne_true hfalsy)
    have hrows : w.rows now = [] := by rw [WrittenMany.rows, hnone, List.map_nil]
    have hstorable : Transaction.isStorable (.write (w.rows now)) = true := by
      rw [hrows]
      rfl
    refine ⟨fun _ => by rw [hanswer hstorable, hnone]; rfl, ?_, ?_⟩
    · rw [htally hstorable, hnone]
      exact (Score.add_nothing _).symm
    · unfold Leaves
      rw [hacts, Option.filter_some, if_pos hstorable, hrows]
      exact Transaction.leads_of_vain fun key old => rfl

theorem shown_putIfAbsent {key value ttl policy : Value} (hc : Carried now t.marks d d')
    (h : Accounts c (.putIfAbsent key value ttl policy) t r) :
    Shown c (.putIfAbsent key value ttl policy) now d d' r := by
  refine Vetted.shown h hc (fun f hf => ⟨by simp only [acts, hf]; rfl,
    by simp only [onLive, hf]; rfl⟩) fun w hw hrest => ?_
  have hinserts : Inserts w value (2 + 1) t.marks r := hrest
  generalize t.marks = marks at hc hinserts
  have hacts : (Call.putIfAbsent key value ttl policy).acts c now (d.table.live now) =
      some (.writeIfAbsent w.key.text (w.row now) now) := by
    simp only [acts, hw]
    rfl
  have hat : (Transaction.writeIfAbsent w.key.text (w.row now) now).IsAt now d.table :=
    Transaction.isAt_of_instant rfl
  have hanswer (hstorable : Transaction.isStorable
      (.writeIfAbsent w.key.text (w.row now) now) = true) :
      (Call.putIfAbsent key value ttl policy).onLive c now (d.table.live now) =
        lookUpLive (d.table.live now) none w.key := by
    simp only [onLive, hw, Except.bind, kept, hstorable, if_true]
  cases hinserts with
  | inserted left n announced =>
    obtain ⟨rfl, hc⟩ := Carried.read hc
    obtain ⟨t', hdone, hc⟩ := Carried.committed hc
    obtain ⟨htable, hscore⟩ := Carried.counted hc announced
    have hstorable := Transaction.storable_of_commit rfl rfl hdone
    rcases Transaction.commit_writeIfAbsent hdone with ⟨-, hall⟩ | ⟨old, hold, -⟩
    · have hfound : (d.table.live n).find? w.key.text = none := by
        rw [Table.find?_live]
        cases hf : d.table.find? w.key.text with
        | none => rfl
        | some row =>
          rw [hf] at hall
          exact Row.filter_of_dead hall
      have hmiss : (Call.putIfAbsent key value ttl policy).onLive c n (d.table.live n) =
          .ok (.lookup .miss) := by
        rw [hanswer hstorable]
        simp only [lookUpLive, hfound]
      have htally : (Call.putIfAbsent key value ttl policy).tally c n (d.table.live n) =
          { written := 1 } := by
        unfold tally
        rw [hmiss]
      exact .of_commit hacts hstorable hat (by rw [htable]; exact hdone)
        (by rw [hscore, htally]; rfl) fun _ => hmiss.symm
    · cases hold
  | present left n row =>
    obtain ⟨rfl, hc⟩ := hc.read
    obtain ⟨hdone, hc⟩ := hc.quiet rfl
    obtain rfl := hc.idle rfl
    have hstorable := Transaction.storable_of_commit rfl rfl hdone
    rcases Transaction.commit_writeIfAbsent hdone with ⟨hold, -⟩ | ⟨old, hold, hf, live⟩
    · cases hold
    · obtain rfl := Insertion.present.inj hold
      have hpresent : (Call.putIfAbsent key value ttl policy).onLive c n (d'.table.live n) =
          (Payload.decode row.payload.value none (some w.key)).map (.lookup ∘ .ofDecoded) := by
        rw [hanswer hstorable]
        simp only [lookUpLive, Table.find?_live_eq_some.2 ⟨hf, live⟩]
      have htally : (Call.putIfAbsent key value ttl policy).tally c n (d'.table.live n) = {} := by
        unfold tally
        rw [hpresent]
        rcases Payload.decode row.payload.value none (some w.key) with f | v
        · rfl
        · cases v <;> rfl
      exact .of_commit hacts hstorable hat hdone (by rw [htally, Score.add_nothing])
        fun _ => hpresent.symm
  | neither left n rest =>
    -- Nobody takes the row away between the two statements.
    obtain ⟨rfl, hc⟩ := Carried.read hc
    obtain ⟨hdone, -⟩ := Carried.quiet hc rfl
    rcases Transaction.commit_writeIfAbsent hdone with ⟨hold, -⟩ | ⟨old, hold, -⟩ <;> cases hold

theorem shown_refreshTtl {key ttl policy : Value} (hc : Carried now t.marks d d')
    (h : Accounts c (.refreshTtl key ttl policy) t r) :
    Shown c (.refreshTtl key ttl policy) now d d' r := by
  refine Vetted.shown h hc (fun f hf => ⟨by simp only [acts, hf]; rfl,
    by simp only [onLive, hf]; rfl⟩) fun w hw hrest => ?_
  obtain ⟨n, b, hmarks, rfl⟩ := hrest
  rw [hmarks] at hc
  obtain ⟨rfl, hc⟩ := Carried.read hc
  obtain ⟨t', hdone, hc⟩ := Carried.committed hc
  have hstill : d'.table = t' ∧ d'.statistics = d.statistics := by
    cases b with
    | true =>
      obtain rfl := (Carried.noted hc).idle rfl
      exact ⟨rfl, rfl⟩
    | false =>
      obtain rfl := Carried.idle hc rfl
      exact ⟨rfl, rfl⟩
  have hstorable := Transaction.storable_of_commit rfl rfl hdone
  have hanswer : (Call.refreshTtl key ttl policy).onLive c n (d.table.live n) =
      .ok (.bool b) := by
    simp only [onLive, hw, Except.bind, kept, hstorable, if_true, Table.isSome_find?_live,
      Transaction.reply_extend hdone]
  have htally : (Call.refreshTtl key ttl policy).tally c n (d.table.live n) = {} := by
    unfold tally
    rw [hanswer]
  exact .of_commit (by simp only [acts, hw]; rfl) hstorable
    (Transaction.isAt_of_instant rfl)
    (by rw [hstill.1]; exact hdone) (by rw [hstill.2, htally, Score.add_nothing])
    fun _ => hanswer.symm

/-! ## Removals -/

/-- A removal of what is asked for, whatever comes of it. -/
theorem Shown.of_removal {call : Call} {a : Transaction τ} {reply : a.Reply} {t' : Table τ}
    (hacts : call.acts c now (d.table.live now) = some a) (storable : a.isStorable = true)
    (hat : a.IsAt now d.table) (hdone : a.commit d.table = .ok (reply, t'))
    (hstill : d'.table = t' ∧ d'.statistics.score = d.statistics.score)
    (htally : call.tally c now (d.table.live now) = {}) (nothing : ¬ call.IsAboutLive c) :
    Shown c call now d d' r :=
  .of_commit hacts storable hat (by rw [hstill.1]; exact hdone)
    (by rw [hstill.2, htally, Score.add_nothing]) fun about => absurd about nothing

theorem shown_evict {key : Value} (hc : Carried now t.marks d d')
    (h : Accounts c (.evict key) t r) : Shown c (.evict key) now d d' r := by
  refine Vetted.shown_of h hc (fun f hf => ⟨by simp only [acts, hf]; rfl, rfl, False.elim⟩)
    fun k hk hrest => ?_
  have hacts : (Call.evict key).acts c now (d.table.live now) = some (.remove k.text) := by
    simp only [acts, hk]
    rfl
  rcases hrest with ⟨hmarks, -⟩ | ⟨told, announced, hmarks, -⟩
  · rw [hmarks] at hc
    obtain ⟨t', hdone, hc⟩ := hc.committed
    obtain rfl := hc.idle rfl
    exact .of_removal hacts rfl (Transaction.isAt_of_timeless rfl rfl) hdone ⟨rfl, rfl⟩ rfl id
  · rw [hmarks] at hc
    obtain ⟨t', hdone, hc⟩ := Carried.committed hc
    obtain ⟨htable, hscore⟩ := Carried.counted hc announced
    exact .of_removal hacts rfl (Transaction.isAt_of_timeless rfl rfl) hdone
      ⟨htable, hscore.trans (Score.add_nothing _)⟩ rfl id

theorem shown_evictAll {keys : Value} (hc : Carried now t.marks d d')
    (h : Accounts c (.evictAll keys) t r) : Shown c (.evictAll keys) now d d' r := by
  refine Vetted.shown_of h hc (fun f hf => ⟨by simp only [acts, hf]; rfl, rfl, False.elim⟩)
    fun ks hks hrest => ?_
  have hacts : (Call.evictAll keys).acts c now (d.table.live now) =
      some (.removeMany (ks.map (·.text))) := by
    simp only [acts, hks]
    rfl
  split at hrest
  · next hempty =>
    obtain ⟨hmarks, -⟩ := hrest
    rw [hmarks] at hc
    obtain rfl := hc.idle rfl
    obtain rfl := List.isEmpty_iff.1 hempty
    refine ⟨False.elim, (Score.add_nothing _).symm, ?_⟩
    unfold Leaves
    rw [hacts]
    refine Transaction.leads_of_vain fun key old => ?_
    cases old <;> rfl
  · obtain ⟨removed, told, hremoved, hmarks, -⟩ := hrest
    rw [hmarks] at hc
    obtain ⟨t', hdone, hc⟩ := hc.committed
    exact .of_removal hacts rfl (Transaction.isAt_of_timeless rfl rfl) hdone
      (hremoved.counted hc) rfl id

theorem shown_evictByPattern {pattern : Value} (hc : Carried now t.marks d d')
    (h : Accounts c (.evictByPattern pattern) t r) :
    Shown c (.evictByPattern pattern) now d d' r := by
  refine Vetted.shown_of h hc (fun f hf => ⟨by simp only [acts, hf]; rfl, rfl, False.elim⟩)
    fun g hg hrest => ?_
  have hacts : (Call.evictByPattern pattern).acts c now (d.table.live now) =
      some (.removeMatching (likeOfGlob g)) := by
    simp only [acts, hg]
    rfl
  obtain ⟨removed, told, hremoved, hmarks, -⟩ := hrest
  rw [hmarks] at hc
  obtain ⟨t', hdone, hc⟩ := hc.committed
  have hstill := hremoved.counted hc
  by_cases hshort : (likeOfGlob g).utf8ByteSize ≤ Like.longest
  · exact .of_removal hacts (decide_eq_true hshort) (Transaction.isAt_of_timeless rfl rfl)
      hdone hstill rfl id
  · obtain rfl := Transaction.commit_removeMatching_long (Nat.lt_of_not_le hshort) hdone
    refine .of_same (by rw [hstill.1]) ?_ (by rw [hstill.2]; exact (Score.add_nothing _).symm)
      False.elim
    rw [hacts, Option.filter_some, if_neg]
    simpa [Transaction.isStorable] using hshort

theorem shown_clear (hc : Carried now t.marks d d') (h : Accounts c .clear t r) :
    Shown c .clear now d d' r := by
  obtain ⟨n, told, announced, hmarks, -⟩ := h
  rw [hmarks] at hc
  obtain ⟨t', hdone, hc⟩ := Carried.committed hc
  have hstill : d'.table = t' ∧ d'.statistics.score = d.statistics.score := by
    split at hc
    · obtain ⟨heard, rfl⟩ := (Carried.noted hc).announced announced
      exact ⟨rfl, rfl⟩
    · obtain ⟨htable, hscore⟩ := Carried.counted hc announced
      exact ⟨htable, hscore.trans (Score.add_nothing _)⟩
  exact .of_removal rfl rfl (Transaction.isAt_of_timeless rfl rfl) hdone hstill rfl id

theorem shown_cleanupExpired (hc : Carried now t.marks d d') (h : Accounts c .cleanupExpired t r) :
    Shown c .cleanupExpired now d d' r := by
  obtain ⟨n, count, -, hmarks⟩ := h
  rw [hmarks] at hc
  obtain ⟨rfl, hc⟩ := Carried.read hc
  obtain ⟨t', hdone, hc⟩ := Carried.committed hc
  have hstill : d'.table = t' ∧ d'.statistics = d.statistics := by
    split at hc
    · obtain rfl := (Carried.noted hc).idle rfl
      exact ⟨rfl, rfl⟩
    · obtain rfl := Carried.idle hc rfl
      exact ⟨rfl, rfl⟩
  have hlive : t'.live n = d.table.live n :=
    Transaction.live_of_sweep (fun _ => true) (fun key old => rfl) hdone
  exact .of_same (by rw [hstill.1, hlive]) rfl (by rw [hstill.2]; exact (Score.add_nothing _).symm)
    False.elim

end ExpiringStore.Call
