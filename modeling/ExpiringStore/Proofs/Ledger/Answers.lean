import ExpiringStore.Proofs.Ledger.Agreement
import ExpiringStore.Proofs.Call.LiveValues
import ExpiringStore.Proofs.Program.Surroundings

/-!
# Calls answer as the ledger tells

If a call finds a table that agrees with a ledger, it answers what the ledger tells, and the table
that it leaves agrees with the ledger after the call.

    t.Agrees now m   →   call ends well after deeds from t to t'
      →   Answers c m now call r   and   t'.Agrees now (m.apply c now call)          (Ends.told)
-/

namespace ExpiringStore

variable {τ : Type} [ExactInstant τ]

namespace Call

omit [ExactInstant τ] in
/-- Checked arguments are good, or else they are refused and nothing is done. -/
theorem Checked.cases {α : Type} {x : Except Failure α} {deeds : List (Deed τ)}
    {r : Except Failure Answer} {rest : α → Prop} (h : Checked x deeds r rest) :
    (∃ a, x = .ok a ∧ rest a) ∨ ∃ f, x = .error f ∧ deeds = [] ∧ r = .error f := by
  cases x with
  | ok a => exact .inl ⟨a, rfl, h⟩
  | error f => exact .inr ⟨f, rfl, h⟩

/-- A call that ends after certain deeds is told by the ledgers that agree with what it finds. -/
def Told (c : Config τ) (call : Call) (deeds : List (Deed τ)) (r : Except Failure Answer) : Prop :=
  ∀ {now : τ} {t t' : Table τ} {m : Ledger τ}, t.Agrees now m → Replays now deeds t t' →
    m.Answers c now call r ∧ t'.Agrees now (m.apply c now call)

end Call

/-- A transaction that only reads keeps the agreement. -/
theorem Table.Agrees.read {now : τ} {t t' : Table τ} {m : Ledger τ} (h : t.Agrees now m)
    {a : Transaction τ} {r : a.Reply} (hdone : a.commit t = .ok (r, t'))
    (hrow : ∀ key, a.onRow key (t.find? key) = t.find? key) : t'.Agrees now m :=
  Table.Agrees.commit hdone fun key => (hrow key).symm ▸ h key

namespace Call

variable {c : Config τ} {deeds : List (Deed τ)} {r : Except Failure Answer}

/-! ## Lookups -/

theorem told_get {key : Value} {refresh : Bool} {target : Option Target}
    (h : Ends c (.get key refresh target) deeds r) :
    Told c (.get key refresh target) deeds r := by
  intro now t t' m hagree hreplays
  simp only [Ledger.Answers, Ledger.apply]
  rcases h.cases with ⟨k, hk, hlooked⟩ | ⟨f, hf, rfl, rfl⟩
  · simp only [hk, Ledger.checked]
    show r = m.lookUp now target k ∧ _
    cases hlooked with
    | missing =>
      obtain ⟨t₁, hfetch, rfl⟩ := hreplays
      have hfound := (Transaction.reply_fetch hfetch).symm
      have habsent : m.present now k.text = none := hagree.absent (by rw [hfound]; rfl)
      unfold Ledger.lookUp
      rw [habsent, Ledger.refresh_of_absent habsent, ite_self]
      exact ⟨rfl, hagree.read hfetch fun _ => rfl⟩
    | expired row n removed dead =>
      obtain ⟨t₁, hfetch, rfl, t₂, hremove, rfl⟩ := hreplays
      have hfound := (Transaction.reply_fetch hfetch).symm
      have habsent : m.present n k.text = none := hagree.absent (by rw [hfound]; exact dead)
      unfold Ledger.lookUp
      rw [habsent, Ledger.refresh_of_absent habsent, ite_self]
      have hagree' := hagree.read hfetch fun _ => rfl
      exact ⟨rfl, hagree'.sweep (· == k.text) hremove fun _ => rfl⟩
    | live row n live =>
      obtain ⟨t₁, hfetch, rfl, hrest⟩ := hreplays
      have hfound := (Transaction.reply_fetch hfetch).symm
      obtain ⟨e, -, holds, hpresent⟩ := hagree.present_of_live hfound live
      have hagree' := hagree.read hfetch fun _ => rfl
      have hsame : t₁ = t := (Transaction.reply_reading rfl hfetch).2
      constructor
      · unfold Ledger.lookUp
        rw [hpresent, holds.value_eq]
      · cases refresh with
        | false =>
          obtain rfl : t₁ = t' := hrest
          exact hagree'
        | true =>
          cases hslides : row.slides with
          | true =>
            rw [hslides] at hrest
            obtain ⟨t₂, htouch, rfl⟩ := hrest
            exact hagree'.touch (hsame ▸ hfound) live hslides htouch
          | false =>
            rw [hslides] at hrest
            obtain rfl : t₁ = t' := hrest
            have hstill : e.slides = false := holds.slides_eq ▸ hslides
            rw [if_pos rfl, Ledger.refresh_of_still hpresent hstill]
            exact hagree'
  · obtain rfl : t = t' := hreplays
    simp only [hf, Ledger.checked]
    exact ⟨rfl, hagree⟩

theorem told_containsKey {key : Value} (h : Ends c (.containsKey key) deeds r) :
    Told c (.containsKey key) deeds r := by
  intro now t t' m hagree hreplays
  simp only [Ledger.Answers, Ledger.apply]
  rcases h.cases with ⟨k, hk, n, b, rfl, rfl⟩ | ⟨f, hf, rfl, rfl⟩
  · obtain ⟨rfl, t₁, hdone, rfl⟩ := hreplays
    simp only [hk, Except.map]
    rw [hagree.isSome_present, ← Transaction.reply_isLive hdone]
    exact ⟨rfl, hagree.read hdone fun _ => rfl⟩
  · obtain rfl : t = t' := hreplays
    rw [hf]
    exact ⟨rfl, hagree⟩

/-! ## Many keys -/

/-- The rows of some keys are found with the values of their entries, if these can be decoded. -/
theorem finds_of_liveValues {now : τ} {t : Table τ} {m : Ledger τ} (hagree : t.Agrees now m)
    (target : Option Target) (ks : List Key) {rows : List (String × Row τ)}
    (hrows : rows = t.select fun k _ => (ks.map (·.text)).contains k) :
    (∃ found, liveValues target now rows = .ok found ∧
      m.Finds now target ks (ks.filterMap fun k => (found.lookup k.text).map (k, ·))) ∨
    ∃ f, liveValues target now rows = .error f ∧ m.Mismatches now target ks f := by
  have hmem : ∀ {k : String} {row : Row τ},
      (k, row) ∈ rows ↔ t.find? k = some row ∧ k ∈ ks.map (·.text) := by
    intro k row
    rw [hrows]
    unfold Table.select
    rw [List.mem_filter, Table.mem_rows_iff, List.contains_iff_mem]
  -- A live row holds a present entry, with the same value.
  have hpresent : ∀ {k : String} {row : Row τ}, (k, row) ∈ rows → row.isExpired now = false →
      ∃ e, m.present now k = some e ∧ row.payload.value = .ofJson e.payload ∧
        ∃ v, ∀ key, Payload.decode (.ofJson e.payload) none key = .ok v := by
    intro k row mem hlive
    obtain ⟨e, -, holds, hpresent⟩ := hagree.present_of_live (hmem.1 mem).1 hlive
    exact ⟨e, hpresent, holds.value_eq, holds.decodes⟩
  rcases liveValues_cases target now rows with
    ⟨found, hfound, hcases⟩ | ⟨k, row, f, mem, hlive, hdecode, hfailed⟩
  · refine .inl ⟨found, hfound, ?_, ?_⟩
    · rw [map_fst_filterMap_lookup]
      refine List.filter_congr fun k mem => ?_
      rcases hcases k.text with ⟨hnone, hall⟩ | ⟨row, v, hrow, hlive, hlookup, -⟩
      · have hdead : (t.find? k.text).all (·.isExpired now) = true := by
          cases hf : t.find? k.text with
          | none => rfl
          | some row => exact hall row (hmem.2 ⟨hf, List.mem_map_of_mem mem⟩)
        rw [hnone, hagree.absent hdead]
        rfl
      · obtain ⟨e, he, -⟩ := hpresent hrow hlive
        rw [hlookup, he]
        rfl
    · intro p hp
      obtain ⟨k, -, hk⟩ := List.mem_filterMap.1 hp
      obtain ⟨v, hlookup, rfl⟩ := Option.map_eq_some_iff.1 hk
      rcases hcases k.text with ⟨hnone, -⟩ | ⟨row, v', hrow, hlive, hlookup', hdecode⟩
      · cases hnone.symm.trans hlookup
      · obtain rfl := Option.some.inj (hlookup.symm.trans hlookup')
        obtain ⟨e, he, hvalue, -⟩ := hpresent hrow hlive
        rw [hvalue] at hdecode
        exact ⟨e, he, Payload.decode_key hdecode _⟩
  · obtain ⟨e, he, hvalue, v, hv⟩ := hpresent mem hlive
    rw [hvalue] at hdecode
    refine .inr ⟨f, hfailed, ?_, ?_⟩
    · cases target with
      | some target => rfl
      | none => cases (hv _).symm.trans hdecode
    · obtain ⟨key, hkey, rfl⟩ := List.mem_map.1 (hmem.1 mem).2
      exact ⟨key, hkey, e, he, hdecode⟩

theorem told_getAll {keys : Value} {target : Option Target}
    (h : Ends c (.getAll keys target) deeds r) : Told c (.getAll keys target) deeds r := by
  intro now t t' m hagree hreplays
  simp only [Ledger.Answers, Ledger.apply]
  rcases h.cases with ⟨ks, hks, hrest⟩ | ⟨f, hf, rfl, rfl⟩
  · simp only [hks]
    split at hrest
    · next hempty =>
      obtain ⟨rfl, rfl⟩ := hrest
      obtain rfl : t = t' := hreplays
      obtain rfl : ks = [] := List.isEmpty_iff.1 hempty
      exact ⟨.inl ⟨[], rfl, rfl, fun p hp => nomatch hp⟩, hagree⟩
    · obtain ⟨rows, n, rfl, rfl⟩ := hrest
      obtain ⟨t₁, hdone, rfl, rfl⟩ := hreplays
      refine ⟨?_, hagree.read hdone fun _ => rfl⟩
      rcases finds_of_liveValues hagree target ks (Transaction.reply_fetchMany hdone) with
        ⟨found, hfound, hfinds⟩ | ⟨f, hfailed, hmismatches⟩
      · rw [hfound]
        exact .inl ⟨_, rfl, hfinds⟩
      · rw [hfailed]
        exact .inr ⟨f, rfl, hmismatches⟩
  · obtain rfl : t = t' := hreplays
    simp only [hf]
    exact ⟨trivial, hagree⟩

/-! ## Listings -/

/-- A listing lists what is present, each key once and in order. -/
theorem lists_of_listed {g : String} (h : Listed g deeds r) {now : τ} {t t' : Table τ}
    {m : Ledger τ} (hagree : t.Agrees now m) (hreplays : Replays now deeds t t') :
    (∃ ks, r = .ok (.texts ks) ∧ m.Lists now g ks) ∧ t'.Agrees now m := by
  obtain ⟨n, ks, rfl, rfl⟩ := h
  obtain ⟨rfl, t₁, hdone, rfl⟩ := hreplays
  refine ⟨⟨ks, rfl, ?_, fun k => ?_⟩, hagree.read hdone fun _ => rfl⟩
  · rw [Transaction.reply_liveKeys hdone]
    unfold Transaction.keysWhere Table.select
    exact (List.pairwise_map.2 (t.sorted.filter _))
  · rw [Transaction.reply_liveKeys hdone, hagree.isSome_present]
    unfold Transaction.keysWhere Table.select
    rw [List.mem_map]
    constructor
    · rintro ⟨⟨k', row⟩, mem, rfl⟩
      obtain ⟨hmem, hcond⟩ := List.mem_filter.1 mem
      obtain ⟨hselects, hlive⟩ := Bool.and_eq_true_iff.1 hcond
      rw [(Table.mem_rows_iff t k' row).1 hmem]
      exact ⟨hlive, hselects⟩
    · rintro ⟨hany, hselects⟩
      obtain ⟨row, hfound, hlive⟩ := (Option.any_eq_true ..).1 hany
      refine ⟨(k, row), List.mem_filter.2 ⟨(Table.mem_rows_iff t k row).2 hfound, ?_⟩, rfl⟩
      exact Bool.and_eq_true_iff.2 ⟨hselects, hlive⟩

theorem told_getKeys {pattern : Value} (h : Ends c (.getKeys pattern) deeds r) :
    Told c (.getKeys pattern) deeds r := by
  intro now t t' m hagree hreplays
  simp only [Ledger.Answers, Ledger.apply]
  rcases h.cases with ⟨g, hg, hlisted⟩ | ⟨f, hf, rfl, rfl⟩
  · simp only [hg]
    exact lists_of_listed hlisted hagree hreplays
  · obtain rfl : t = t' := hreplays
    simp only [hf]
    exact ⟨trivial, hagree⟩

theorem told_getAllKeys (h : Ends c .getAllKeys deeds r) : Told c .getAllKeys deeds r := by
  intro now t t' m hagree hreplays
  exact lists_of_listed h hagree hreplays

/-! ## Questions about an entry -/

/-- The search for a live row finds the row of the present entry. -/
theorem found_of_fetchedLive {k : String} {row? : Option (Row τ)} (h : FetchedLive k deeds row?)
    {now : τ} {t t' : Table τ} {m : Ledger τ} (hagree : t.Agrees now m)
    (hreplays : Replays now deeds t t') :
    t'.Agrees now m ∧ ((row? = none ∧ m.present now k = none) ∨
      ∃ row e, row? = some row ∧ row.Holds e ∧ row.isExpired now = false ∧
        m.present now k = some e) := by
  cases h with
  | missing =>
    obtain ⟨t₁, hfetch, rfl⟩ := hreplays
    have hfound := (Transaction.reply_fetch hfetch).symm
    exact ⟨hagree.read hfetch fun _ => rfl, .inl ⟨rfl, hagree.absent (by rw [hfound]; rfl)⟩⟩
  | expired row n dead =>
    obtain ⟨t₁, hfetch, rfl, rfl⟩ := hreplays
    have hfound := (Transaction.reply_fetch hfetch).symm
    exact ⟨hagree.read hfetch fun _ => rfl, .inl ⟨rfl, hagree.absent (by rw [hfound]; exact dead)⟩⟩
  | live row n live =>
    obtain ⟨t₁, hfetch, rfl, rfl⟩ := hreplays
    have hfound := (Transaction.reply_fetch hfetch).symm
    obtain ⟨e, -, holds, hpresent⟩ := hagree.present_of_live hfound live
    exact ⟨hagree.read hfetch fun _ => rfl, .inr ⟨row, e, rfl, holds, live, hpresent⟩⟩

theorem told_getTtlPolicy {key : Value} (h : Ends c (.getTtlPolicy key) deeds r) :
    Told c (.getTtlPolicy key) deeds r := by
  intro now t t' m hagree hreplays
  simp only [Ledger.Answers, Ledger.apply]
  rcases h.cases with ⟨k, hk, row?, hfetched, rfl⟩ | ⟨f, hf, rfl, rfl⟩
  · obtain ⟨hagree', hcases⟩ := found_of_fetchedLive hfetched hagree hreplays
    refine ⟨?_, hagree'⟩
    simp only [hk, Except.map]
    rcases hcases with ⟨rfl, habsent⟩ | ⟨row, e, rfl, holds, -, hpresent⟩
    · rw [habsent]
      rfl
    · rw [hpresent, Option.map_some, Option.map_some, holds.ofStored_policy]
  · obtain rfl : t = t' := hreplays
    rw [hf]
    exact ⟨rfl, hagree⟩

theorem told_getRemainingTtl {key : Value} (h : Ends c (.getRemainingTtl key) deeds r) :
    Told c (.getRemainingTtl key) deeds r := by
  intro now t t' m hagree hreplays
  simp only [Ledger.Answers, Ledger.apply]
  rcases h.cases with ⟨k, hk, hrest⟩ | ⟨f, hf, rfl, rfl⟩
  · simp only [hk]
    rcases hrest with ⟨hfetched, rfl⟩ | ⟨row, first, n, hfetched, rfl, rfl⟩
    · obtain ⟨hagree', ⟨-, habsent⟩ | ⟨row, e, hrow, -⟩⟩ :=
        found_of_fetchedLive hfetched hagree hreplays
      · refine ⟨⟨fun _ e he => ?_, fun _ => rfl⟩, hagree'⟩
        cases habsent.symm.trans he
      · cases hrow
    · obtain ⟨t₁, hfirst, rfl, rfl⟩ := replays_append.1 hreplays
      obtain ⟨hagree', ⟨hrow, -⟩ | ⟨row', e, hrow, holds, hlive, hpresent⟩⟩ :=
        found_of_fetchedLive hfetched hagree hfirst
      · cases hrow
      obtain rfl := Option.some.inj hrow
      refine ⟨?_, hagree'⟩
      rw [hpresent]
      unfold Lifetime.remainingDuration
      rw [holds.remaining_eq hlive]
      cases hn : e.ttl with
      | none =>
        constructor
        · intro _ e' he
          rw [← Option.some.inj he, hn]
        · exact fun _ => rfl
      | some ttl =>
        constructor
        · -- What is left of a lifetime is a duration or none that can be told, but not nothing.
          intro hr
          simp only [Option.map_some] at hr
          cases hd : Instant.toDuration (e.anchor + Instant.ofSeconds ttl - n) with
          | error f => rw [hd] at hr; cases hr
          | ok d => rw [hd] at hr; cases hr
        · intro hnone
          rw [hnone e rfl] at hn
          cases hn
  · obtain rfl : t = t' := hreplays
    simp only [hf]
    exact ⟨trivial, hagree⟩

/-! ## Writes -/

theorem told_put {key value ttl policy : Value} (h : Ends c (.put key value ttl policy) deeds r) :
    Told c (.put key value ttl policy) deeds r := by
  intro now t t' m hagree hreplays
  simp only [Ledger.Answers, Ledger.apply]
  rcases h.cases with ⟨w, hw, n, rfl, rfl⟩ | ⟨f, hf, rfl, rfl⟩
  · obtain ⟨rfl, t₁, hdone, rfl⟩ := hreplays
    simp only [hw, Ledger.checked]
    exact ⟨rfl, hagree.write (Arguments.written_decodes hw) hdone⟩
  · obtain rfl : t = t' := hreplays
    simp only [hf, Ledger.checked]
    exact ⟨rfl, hagree⟩

theorem told_putAll {entries ttl policy : Value} (h : Ends c (.putAll entries ttl policy) deeds r) :
    Told c (.putAll entries ttl policy) deeds r := by
  intro now t t' m hagree hreplays
  simp only [Ledger.Answers, Ledger.apply]
  rcases h.cases with ⟨w, hw, hrest⟩ | ⟨f, hf, rfl, rfl⟩
  · simp only [hw, Ledger.checked, Except.map]
    split at hrest
    · obtain ⟨n, rfl, rfl⟩ := hrest
      obtain ⟨rfl, t₁, hdone, rfl⟩ := hreplays
      exact ⟨rfl, hagree.writeMany (Arguments.writtenMany_decodes hw) hdone⟩
    · next hfalsy =>
      obtain ⟨rfl, rfl⟩ := hrest
      obtain rfl : t = t' := hreplays
      have hnone := Arguments.writtenMany_falsy hw (eq_false_of_ne_true hfalsy)
      unfold Ledger.writeMany
      rw [hnone]
      exact ⟨rfl, hagree⟩
  · obtain rfl : t = t' := hreplays
    simp only [hf, Ledger.checked]
    exact ⟨rfl, hagree⟩

theorem told_putIfAbsent {key value ttl policy : Value}
    (h : Ends c (.putIfAbsent key value ttl policy) deeds r) :
    Told c (.putIfAbsent key value ttl policy) deeds r := by
  intro now t t' m hagree hreplays
  simp only [Ledger.Answers, Ledger.apply]
  rcases h.cases with ⟨w, hw, hrest⟩ | ⟨f, hf, rfl, rfl⟩
  · simp only [hw, Ledger.checked]
    show r = m.lookUp now none w.key ∧ _
    have hdecodes := Arguments.written_decodes hw
    replace hrest : Inserted w (2 + 1) deeds r := hrest
    cases hrest with
    | inserted left n =>
      obtain ⟨rfl, t₁, hdone, rfl⟩ := hreplays
      obtain ⟨hagree', ⟨-, habsent⟩ | ⟨row, e, hr, -⟩⟩ := hagree.writeIfAbsent hdecodes hdone
      · refine ⟨?_, hagree'⟩
        unfold Ledger.lookUp
        rw [habsent]
      · cases hr
    | present left n row =>
      obtain ⟨rfl, t₁, hdone, rfl⟩ := hreplays
      obtain ⟨hagree', ⟨hr, -⟩ | ⟨row', e, hr, holds, hpresent⟩⟩ :=
        hagree.writeIfAbsent hdecodes hdone
      · cases hr
      · cases hr
        refine ⟨?_, hagree'⟩
        unfold Ledger.lookUp
        rw [hpresent, holds.value_eq]
    | neither left n rest =>
      obtain ⟨rfl, t₁, hdone, -⟩ := hreplays
      obtain ⟨-, ⟨hr, -⟩ | ⟨row', e, hr, -⟩⟩ := hagree.writeIfAbsent hdecodes hdone
      · cases hr
      · cases hr
  · obtain rfl : t = t' := hreplays
    simp only [hf, Ledger.checked]
    exact ⟨rfl, hagree⟩

theorem told_refreshTtl {key ttl policy : Value} (h : Ends c (.refreshTtl key ttl policy) deeds r) :
    Told c (.refreshTtl key ttl policy) deeds r := by
  intro now t t' m hagree hreplays
  simp only [Ledger.Answers, Ledger.apply]
  rcases h.cases with ⟨w, hw, n, b, rfl, rfl⟩ | ⟨f, hf, rfl, rfl⟩
  · obtain ⟨rfl, t₁, hdone, rfl⟩ := hreplays
    obtain ⟨hagree', hb⟩ := hagree.renew hdone
    simp only [hw, Ledger.checked, Except.map]
    exact ⟨by rw [hb], hagree'⟩
  · obtain rfl : t = t' := hreplays
    simp only [hf, Ledger.checked]
    exact ⟨rfl, hagree⟩

/-! ## Removals -/

theorem told_evict {key : Value} (h : Ends c (.evict key) deeds r) :
    Told c (.evict key) deeds r := by
  intro now t t' m hagree hreplays
  simp only [Ledger.Answers, Ledger.apply]
  rcases h.cases with ⟨k, hk, b, rfl, rfl⟩ | ⟨f, hf, rfl, rfl⟩
  · obtain ⟨t₁, hdone, rfl⟩ := hreplays
    simp only [hk, Ledger.checked]
    exact ⟨trivial, hagree.remove (· == k.text) hdone fun _ => rfl⟩
  · obtain rfl : t = t' := hreplays
    simp only [hf, Ledger.checked]
    exact ⟨trivial, hagree⟩

theorem told_evictAll {keys : Value} (h : Ends c (.evictAll keys) deeds r) :
    Told c (.evictAll keys) deeds r := by
  intro now t t' m hagree hreplays
  simp only [Ledger.Answers, Ledger.apply]
  rcases h.cases with ⟨ks, hks, hrest⟩ | ⟨f, hf, rfl, rfl⟩
  · simp only [hks, Ledger.checked]
    refine ⟨trivial, ?_⟩
    split at hrest
    · next hempty =>
      obtain ⟨rfl, rfl⟩ := hrest
      obtain rfl : t = t' := hreplays
      obtain rfl : ks = [] := List.isEmpty_iff.1 hempty
      exact hagree
    · obtain ⟨removed, rfl, rfl⟩ := hrest
      obtain ⟨t₁, hdone, rfl⟩ := hreplays
      exact hagree.remove (ks.map (·.text)).contains hdone fun _ => rfl
  · obtain rfl : t = t' := hreplays
    simp only [hf, Ledger.checked]
    exact ⟨trivial, hagree⟩

theorem told_evictByPattern {pattern : Value} (h : Ends c (.evictByPattern pattern) deeds r) :
    Told c (.evictByPattern pattern) deeds r := by
  intro now t t' m hagree hreplays
  simp only [Ledger.Answers, Ledger.apply]
  rcases h.cases with ⟨g, hg, removed, rfl, rfl⟩ | ⟨f, hf, rfl, rfl⟩
  · obtain ⟨t₁, hdone, rfl⟩ := hreplays
    simp only [hg, Ledger.checked]
    exact ⟨trivial, hagree.remove (Like.selects (likeOfGlob g)) hdone fun _ => rfl⟩
  · obtain rfl : t = t' := hreplays
    simp only [hf, Ledger.checked]
    exact ⟨trivial, hagree⟩

theorem told_clear (h : Ends c .clear deeds r) : Told c .clear deeds r := by
  intro now t t' m hagree hreplays
  obtain ⟨n, rfl, rfl⟩ := h
  obtain ⟨t₁, hdone, rfl⟩ := hreplays
  exact ⟨trivial, Table.Agrees.commit hdone fun _ => .nothing⟩

theorem told_cleanupExpired (h : Ends c .cleanupExpired deeds r) :
    Told c .cleanupExpired deeds r := by
  intro now t t' m hagree hreplays
  obtain ⟨n, removed, rfl, rfl⟩ := h
  obtain ⟨rfl, t₁, hdone, rfl⟩ := hreplays
  exact ⟨trivial, hagree.sweep (fun _ => true) hdone fun _ => rfl⟩

theorem told_size (h : Ends c .size deeds r) : Told c .size deeds r := by
  intro now t t' m hagree hreplays
  obtain ⟨n, count, rfl | rfl, rfl⟩ := h
  · obtain ⟨rfl, rfl⟩ := hreplays
    exact ⟨trivial, hagree⟩
  · obtain ⟨rfl, t₁, hdone, rfl⟩ := hreplays
    exact ⟨trivial, hagree.read hdone fun _ => rfl⟩

/-- Every call answers as the ledger tells, and does to the table what it does to the ledger. -/
theorem Ends.told {call : Call} (h : call.Ends c deeds r) : call.Told c deeds r := by
  cases call with
  | get => exact told_get h
  | containsKey => exact told_containsKey h
  | getAll => exact told_getAll h
  | getKeys => exact told_getKeys h
  | getAllKeys => exact told_getAllKeys h
  | getRemainingTtl => exact told_getRemainingTtl h
  | getTtlPolicy => exact told_getTtlPolicy h
  | size => exact told_size h
  | put => exact told_put h
  | putIfAbsent => exact told_putIfAbsent h
  | putAll => exact told_putAll h
  | refreshTtl => exact told_refreshTtl h
  | evict => exact told_evict h
  | evictAll => exact told_evictAll h
  | evictByPattern => exact told_evictByPattern h
  | clear => exact told_clear h
  | cleanupExpired => exact told_cleanupExpired h

end Call

end ExpiringStore
