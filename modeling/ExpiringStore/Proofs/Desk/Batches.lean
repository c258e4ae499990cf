import ExpiringStore.Proofs.Call.LiveValues
import ExpiringStore.Proofs.Desk.BatchWrites
import ExpiringStore.Proofs.Table.Live
import ExpiringStore.Proofs.Table.Storable

/-!
# Batches

At a steady station a batch is as good as its members one after another.  Entries that are put at
once leave the table, the counters and the events that they leave one by one; keys that are evicted
at once too, though they may be told of in another order; and keys that are looked up at once are
found as they are one by one, except that a single lookup removes what it finds expired.

    held t now k                    the value that a live row holds under a key
    get k          answers held k, and counts it as found or as missing            (Settled.get)
    get_all ks     answers held k for each k of ks                                 (Settled.getAll)
    batches_agree                   put_all, evict_all and get_all
-/

namespace ExpiringStore

variable {τ σ : Type} [Instant τ]

/-! ## What a table holds of a key -/

/-- The value that the live row of a key holds. -/
def Table.held (t : Table τ) (now : τ) (target : Option Target) (k : Key) : Option Value :=
  ((t.live now).find? k.text).bind fun row =>
    (Payload.decode row.payload.value target (some k)).toOption

/-- The row of a key can be read, and decoded if it is live. -/
structure Table.Reads (t : Table τ) (now : τ) (target : Option Target) (k : Key) : Prop where
  readable (row : Row τ) (found : t.find? k.text = some row) : row.payload.readError? = none
  decodes (row : Row τ) (found : t.find? k.text = some row) (live : row.isExpired now = false) :
    ∃ v, Payload.decode row.payload.value target (some k) = .ok v

/-- A table holds no other rows than another one, and the same of those that are live. -/
structure Table.Kept (now : τ) (t t' : Table τ) : Prop where
  rows (key : String) (row : Row τ) (found : t'.find? key = some row) : t.find? key = some row
  live : t'.live now = t.live now

namespace Table

variable {t t' : Table τ} {now : τ} {target : Option Target} {k : Key}

theorem Kept.refl (t : Table τ) : Kept now t t := ⟨fun _ _ found => found, rfl⟩

theorem Kept.trans {t₁ : Table τ} (first : Kept now t t₁) (second : Kept now t₁ t') :
    Kept now t t' :=
  ⟨fun key row found => first.rows key row (second.rows key row found),
    second.live.trans first.live⟩

theorem Reads.kept (reads : t.Reads now target k) (kept : Kept now t t') :
    t'.Reads now target k where
  readable row found := reads.readable row (kept.rows _ row found)
  decodes row found := reads.decodes row (kept.rows _ row found)

theorem Reads.of_row {row : Row τ} (found : t.find? k.text = some row)
    (readable : row.payload.readError? = none) {v : Value}
    (decodes : Payload.decode row.payload.value target (some k) = .ok v) :
    t.Reads now target k where
  readable row' found' := by
    obtain rfl := Option.some.inj (found.symm.trans found')
    exact readable
  decodes row' found' _ := by
    obtain rfl := Option.some.inj (found.symm.trans found')
    exact ⟨v, decodes⟩

theorem held_of_live {row : Row τ} {v : Value} (found : t.find? k.text = some row)
    (live : row.isExpired now = false)
    (decodes : Payload.decode row.payload.value target (some k) = .ok v) :
    t.held now target k = some v := by
  unfold held
  rw [find?_live_eq_some.2 ⟨found, live⟩, Option.bind_some, decodes]
  rfl

theorem held_of_dead (dead : ∀ row, t.find? k.text = some row → row.isExpired now = true) :
    t.held now target k = none := by
  have hnone : (t.live now).find? k.text = none := by
    rw [find?_live, Option.filter_eq_none_iff]
    intro row found
    simp [dead row found]
  unfold held
  rw [hnone, Option.bind_none]

theorem held_congr (same : t'.live now = t.live now) : t'.held now target = t.held now target := by
  funext k
  unfold held
  rw [same]

end Table

namespace Transaction

variable {t : Table τ} {f : Failure}

theorem commit_fetch_ne {key : String}
    (readable : ∀ row, t.find? key = some row → row.payload.readError? = none) :
    (fetch key).commit t ≠ .error f := by
  rw [commit_eq]
  simp only [firstOn]
  intro h
  cases hfound : t.find? key with
  | none =>
    rw [hfound] at h
    cases h
  | some row =>
    rw [hfound] at h
    dsimp only at h
    rw [readable_of_readError? (readable row hfound)] at h
    cases h

theorem commit_fetchMany_ne {keys : List String}
    (readable : ∀ key ∈ keys, ∀ row, t.find? key = some row → row.payload.readError? = none) :
    (fetchMany keys).commit t ≠ .error f := by
  have hrows : ∀ p ∈ t.select (fun k _ => keys.contains k), p.2.payload.readError? = none := by
    rintro ⟨key, row⟩ mem
    obtain ⟨hrow, asked⟩ := List.mem_filter.1 mem
    exact readable key (List.contains_iff_mem.1 asked) row ((Table.mem_rows_iff t key row).1 hrow)
  obtain ⟨rows, hrows⟩ := allReadable_of_readError? hrows
  rw [commit_eq]
  simp only [firstOn, hrows]
  intro h
  cases h

/-- What is removed because it has expired was not live. -/
theorem kept_removeExpiredKey {t' : Table τ} {key : String} {now : τ} {removed : Bool}
    {row : Row τ} (found : t.find? key = some row) (dead : row.isExpired now = true)
    (h : commit t (.removeExpiredKey key now) = .ok (removed, t')) : Table.Kept now t t' where
  rows k row' found' := by
    rw [find?_removal rfl h, Option.filter_eq_some_iff] at found'
    exact found'.1
  live := by
    refine Table.eq_of_find? fun k => ?_
    rw [Table.find?_live, Table.find?_live, find?_removal rfl h]
    cases hfound : t.find? k with
    | none => rfl
    | some row' =>
      by_cases hk : k = key
      · obtain rfl : row' = row := Option.some.inj (hfound.symm.trans (hk ▸ found))
        rw [Row.filter_of_dead dead, Option.filter_eq_none_iff]
        intro row'' mem
        obtain rfl := Option.some.inj (Option.filter_eq_some_iff.1 mem).1
        simp [dead]
      · rw [Option.filter_some_pos (by simp [takes, hk])]

end Transaction

/-! ## What is found and missed -/

/-- So many were found of so many that were asked for. -/
def Statistics.seek (s : Statistics) (found asked : Nat) : Statistics :=
  (s.record .hits found).record .misses ((asked : Int) - found)

theorem Statistics.seek_seek (s : Statistics) (found asked found' asked' : Nat) :
    (s.seek found asked).seek found' asked' = s.seek (found + found') (asked + asked') := by
  simp only [seek, record, Statistics.mk.injEq]
  refine ⟨by omega, by omega, trivial, trivial⟩

theorem Statistics.seek_nothing (s : Statistics) : s.seek 0 0 = s := by
  simp [seek, record]

theorem Statistics.seek_hit (s : Statistics) : s.seek 1 1 = s.record .hits 1 := by
  simp [seek, record]

theorem Statistics.seek_miss (s : Statistics) : s.seek 0 1 = s.record .misses 1 := by
  simp [seek, record]

def Lookup.ofHeld (v : Option Value) : Lookup := v.elim .miss .ofDecoded

variable {c : Config τ} {now : τ} {ls : List ListenerId} {d d' : Desk τ} {target : Option Target}
  {r : Except Failure Answer} {rs : List (Except Failure Answer)}

/-- What a lookup does that finds or misses a key. -/
structure Desk.Sought (now : τ) (found asked : Nat) (d d' : Desk τ) : Prop where
  kept : Table.Kept now d.table d'.table
  statistics : d'.statistics = d.statistics.seek found asked
  heard : d'.heard = d.heard

/-- A row that is fetched is the one of its key, and fetching it changes nothing. -/
theorem Does.fetched {listens : Desk τ → Desk τ → Prop} {key : String} {found : Option (Row τ)}
    {ms : List (Mark τ)} (h : Does listens (.committed (.fetch key) found :: ms) d d') :
    d.table.find? key = found ∧ Does listens ms d d' := by
  obtain ⟨d₁, ⟨t, hfetch, rfl⟩, hrest⟩ := h
  obtain rfl : t = d.table := Transaction.commit_quiet rfl hfetch
  exact ⟨(Transaction.reply_fetch hfetch).symm, hrest⟩

theorem Does.fetchedMany {listens : Desk τ → Desk τ → Prop} {keys : List String}
    {rows : List (String × Row τ)} {ms : List (Mark τ)}
    (h : Does listens (.committed (.fetchMany keys) rows :: ms) d d') :
    rows = d.table.select (fun key _ => keys.contains key) ∧ Does listens ms d d' := by
  obtain ⟨d₁, ⟨t, hfetch, rfl⟩, hrest⟩ := h
  obtain rfl : t = d.table := Transaction.commit_quiet rfl hfetch
  exact ⟨Transaction.reply_fetchMany hfetch, hrest⟩

theorem Does.swept {k : Key} {row : Row τ} {troubles : List (Trouble τ)} {swept : List (Mark τ)}
    (found : d.table.find? k.text = some row) (dead : row.isExpired now = true)
    (sweep : Call.Swept k now troubles swept)
    (h : Does (fun d d' => d' = d) (swept ++ [.noted (.record .misses 1)]) d d') :
    Desk.Sought now 0 1 d d' := by
  have hcounted := d.statistics.seek_miss.symm
  cases sweep with
  | removed =>
    obtain ⟨d₁, ⟨t, hcommit, rfl⟩, d₂, rfl, d₃, rfl, rfl⟩ := h
    exact ⟨Transaction.kept_removeExpiredKey found dead hcommit, hcounted, rfl⟩
  | gone =>
    obtain ⟨d₁, ⟨t, hcommit, rfl⟩, d₂, rfl, rfl⟩ := h
    exact ⟨Transaction.kept_removeExpiredKey found dead hcommit, hcounted, rfl⟩
  | missed =>
    obtain ⟨d₁, rfl, rfl⟩ := h
    exact ⟨.refl _, hcounted, rfl⟩

theorem Does.tallied {asked found : Nat}
    (h : Does (fun d d' => d' = d) (Call.tallied asked found) d d') :
    Desk.Sought now found asked d d' := by
  unfold Call.tallied at h
  obtain ⟨d₁, hhits, hmisses⟩ := does_append.1 h
  have hfound : d₁ = { d with statistics := d.statistics.record .hits found } := by
    split at hhits
    · next hnone =>
      obtain rfl : d₁ = d := hhits
      subst hnone
      simp [Statistics.record]
    · obtain ⟨d₂, rfl, rfl⟩ := hhits
      rfl
  have hmissed : d' = { d₁ with
      statistics := d₁.statistics.record .misses ((asked : Int) - found) } := by
    split at hmisses
    · next hall =>
      obtain rfl : d' = d₁ := hmisses
      subst hall
      simp [Statistics.record]
    · obtain ⟨d₂, rfl, rfl⟩ := hmisses
      rfl
  rw [hmissed, hfound]
  exact ⟨.refl _, rfl, rfl⟩

namespace Settled

/-- A lookup that refreshes nothing answers what is held of its key, and counts it. -/
theorem get {key : Value} {k : Key} (given : Arguments.key key "get" = .ok k)
    (reads : d.table.Reads now target k)
    (settled : Settled c (.get key false target) now ls d d' r) :
    r = .ok (.lookup (.ofHeld (d.table.held now target k))) ∧
      Desk.Sought now (d.table.held now target k).toList.length 1 d d' := by
  cases settled with
  | @accounts t r account marks does =>
    have hrest := Call.Vetted.rest account given
    cases (show Call.LooksUp k false target t r from hrest) with
    | missing hmarks =>
      rw [hmarks] at does
      obtain ⟨hfound, d₁, rfl, rfl⟩ := does.fetched
      rw [Table.held_of_dead fun row found => by cases hfound.symm.trans found]
      exact ⟨rfl, .refl _, d.statistics.seek_miss.symm, rfl⟩
    | @expired row n swept dead sweep hmarks =>
      rw [hmarks] at does marks
      obtain rfl : n = now := marks (.read n) (by simp)
      obtain ⟨hfound, d₁, rfl, hrest⟩ := does.fetched
      rw [Table.held_of_dead fun row' found => by
        obtain rfl := Option.some.inj (hfound.symm.trans found)
        exact dead]
      exact ⟨rfl, Does.swept hfound dead sweep hrest⟩
    | @found row n touched v live touch decodes hmarks =>
      rw [hmarks] at does marks
      obtain rfl : n = now := marks (.read n) (by simp)
      obtain ⟨hfound, d₁, rfl, hrest⟩ := does.fetched
      rw [Table.held_of_live hfound live decodes]
      cases touch with
      | still =>
        obtain ⟨d₂, rfl, rfl⟩ := hrest
        exact ⟨rfl, .refl _, d₁.statistics.seek_hit.symm, rfl⟩
      | moved h | missed h => cases h
    | @undecodable row n touched f live touch fails hmarks =>
      rw [hmarks] at does marks
      obtain rfl : n = now := marks (.read n) (by simp)
      obtain ⟨v, hv⟩ := reads.decodes row does.fetched.1 live
      cases hv.symm.trans fails
  | refused made read refuses same =>
    cases made with
    | lookUp given' =>
      obtain rfl := Except.ok.inj (given.symm.trans given')
      exact absurd refuses (Transaction.commit_fetch_ne reads.readable)
    | expire => cases refuses
    | touch given' fetched read' live slides => cases slides

/-- Keys that are looked up one after another are found as the first of these lookups would find
them. -/
theorem gets_sought {ks : List Key} (accepted : ∀ k ∈ ks, Arguments.key k.toValue "get" = .ok k)
    (reads : ∀ k ∈ ks, d.table.Reads now target k)
    (all : SettledInTurn c now ls (ks.map fun k => .get k.toValue false target) d d' rs) :
    rs = ks.map (fun k => .ok (.lookup (.ofHeld (d.table.held now target k)))) ∧
      Desk.Sought now (ks.filterMap (d.table.held now target)).length ks.length d d' := by
  induction ks generalizing d rs with
  | nil =>
    cases all
    exact ⟨rfl, .refl _, (Statistics.seek_nothing _).symm, rfl⟩
  | cons k rest ih =>
    cases all with
    | @cons _ _ _ d₁ _ r rs first more =>
      obtain ⟨rfl, hfirst⟩ := first.get (accepted k List.mem_cons_self) (reads k List.mem_cons_self)
      obtain ⟨rfl, hrest⟩ := ih (fun k' mem => accepted k' (List.mem_cons_of_mem _ mem))
        (fun k' mem => (reads k' (List.mem_cons_of_mem _ mem)).kept hfirst.kept) more
      rw [Table.held_congr hfirst.kept.live] at hrest ⊢
      refine ⟨rfl, hfirst.kept.trans hrest.kept, ?_, hrest.heard.trans hfirst.heard⟩
      rw [hrest.statistics, hfirst.statistics, Statistics.seek_seek]
      congr 1
      · cases hheld : d.table.held now target k <;> simp [hheld, Nat.add_comm]
      · rw [List.length_cons, Nat.add_comm]

/-- What a batch decodes of a key is what is held of it. -/
theorem lookup_liveValues {t : Table τ} {ks : List Key} {values : List (String × Value)}
    (decoded : Call.liveValues target now
      (t.select fun key _ => (ks.map (·.text)).contains key) = .ok values)
    {k : Key} (mem : k ∈ ks) :
    values.lookup k.text = t.held now target k := by
  rcases
    Call.liveValues_cases target now (t.select fun key _ => (ks.map (·.text)).contains key) with
    ⟨values', hvalues, hcases⟩ | ⟨_, _, _, -, -, -, hfailed⟩
  · obtain rfl := Except.ok.inj (decoded.symm.trans hvalues)
    rcases hcases k.text with ⟨hnone, hdead⟩ | ⟨row, v, hrow, live, hlookup, decodes⟩
    · have hasked : (ks.map (·.text)).contains k.text = true :=
        List.contains_iff_mem.2 (List.mem_map_of_mem mem)
      rw [hnone, Table.held_of_dead fun row found =>
        hdead row (List.mem_filter.2 ⟨(Table.mem_rows_iff t k.text row).2 found, hasked⟩)]
    · have hfound := (Table.mem_rows_iff t k.text row).1 (List.mem_filter.1 hrow).1
      rw [hlookup, Table.held_of_live hfound live (Payload.decode_key decodes _)]
  · cases decoded.symm.trans hfailed

/-- A batch decodes what can be decoded one by one. -/
theorem liveValues_ne {t : Table τ} {ks : List Key} (reads : ∀ k ∈ ks, t.Reads now target k)
    {f : Failure} : Call.liveValues target now
      (t.select fun key _ => (ks.map (·.text)).contains key) ≠ .error f := by
  intro hfailed
  rcases
    Call.liveValues_cases target now (t.select fun key _ => (ks.map (·.text)).contains key) with
    ⟨values, hvalues, -⟩ | ⟨key, row, g, hrow, live, fails, -⟩
  · cases hvalues.symm.trans hfailed
  · obtain ⟨hmem, asked⟩ := List.mem_filter.1 hrow
    obtain ⟨k, mem, rfl⟩ := List.mem_map.1 (List.contains_iff_mem.1 asked)
    obtain ⟨v, hv⟩ := (reads k mem).decodes row ((Table.mem_rows_iff t k.text row).1 hmem) live
    cases (Payload.decode_key hv _).symm.trans fails

/-- Keys that are looked up at once are answered what is held of each, and counted alike. -/
theorem getAll {keys : Value} {ks : List Key} (given : Arguments.keys keys "get_all" = .ok ks)
    (reads : ∀ k ∈ ks, d.table.Reads now target k)
    (settled : Settled c (.getAll keys target) now ls d d' r) :
    r = .ok (.found (ks.filterMap fun k => (d.table.held now target k).map (k, ·))) ∧
      Desk.Sought now (ks.filterMap (d.table.held now target)).length ks.length d d' := by
  cases settled with
  | accounts account marks does =>
    have hrest := Call.Vetted.rest account given
    split at hrest
    · next hnone =>
      obtain rfl := List.isEmpty_iff.1 hnone
      obtain ⟨hmarks, rfl⟩ := hrest
      rw [hmarks] at does
      obtain rfl : d' = d := does
      exact ⟨rfl, .refl _, d'.statistics.seek_nothing.symm, rfl⟩
    · obtain ⟨rows, n, hrest⟩ := hrest
      split at hrest
      · next values hvalues =>
        obtain ⟨rfl, hmarks⟩ := hrest
        rw [hmarks] at does marks
        obtain rfl : n = now := marks (.read n) (by simp)
        obtain ⟨rfl, d₁, hread, htallied⟩ := does.fetchedMany
        obtain rfl : d = d₁ := hread.symm
        have hlookup : ∀ k ∈ ks, values.lookup k.text = d.table.held n target k :=
          fun k mem => lookup_liveValues hvalues mem
        have hfilter : (ks.filter fun k => (values.lookup k.text).isSome) =
            ks.filter fun k => (d.table.held n target k).isSome :=
          List.filter_congr fun k mem => by rw [hlookup k mem]
        have hlength : (ks.filterMap (d.table.held n target)).length = values.length := by
          rw [List.length_filterMap_eq_countP, List.countP_eq_length_filter, ← hfilter]
          exact Call.length_found_liveValues (Arguments.nodup_keys given) (d.table.nodup_select _)
            (fun p mem => List.contains_iff_mem.1 (List.mem_filter.1 mem).2) hvalues
        refine ⟨?_, hlength ▸ Does.tallied htallied⟩
        rw [List.filterMap_congr fun k mem => by rw [hlookup k mem]]
      · next f hf =>
        rw [hrest.2] at does marks
        obtain rfl : n = now := marks (.read n) (by simp)
        obtain ⟨rfl, -⟩ := does.fetchedMany
        exact absurd hf (liveValues_ne reads)
  | refused made read refuses same =>
    cases made with
    | getAll given' =>
      obtain rfl := Except.ok.inj (given.symm.trans given')
      refine absurd refuses (Transaction.commit_fetchMany_ne fun key mem => ?_)
      obtain ⟨k, hk, rfl⟩ := List.mem_map.1 mem
      exact (reads k hk).readable

end Settled

/-! ## Batches and single calls -/

def Event.asText : Event → Event
  | .put k v => .put (.plain k.text) v
  | .evict k => .evict (.plain k.text)
  | .clear => .clear

omit [Instant τ] in
theorem map_heardOf (ls : List ListenerId) (es : List Event) :
    (heardOf ls es).map (Prod.map id Event.asText) = heardOf ls (es.map Event.asText) := by
  unfold heardOf
  rw [List.map_flatMap, List.flatMap_map]
  simp [Function.comp_def]

namespace Answer

def isTrue : Except Failure Answer → Bool
  | .ok (.value (.bool b)) => b
  | _ => false

/-- The value that a lookup has found, the null marker for a stored null. -/
def found? : Except Failure Answer → Option Value
  | .ok (.lookup x) => x.value?.toOption
  | _ => none

theorem found?_ofHeld (v : Option Value) : found? (.ok (.lookup (.ofHeld v))) = v := by
  cases v with
  | none => rfl
  | some v => cases v <;> rfl

end Answer

namespace Call

def puts (pairs : List (Value × Value)) (ttl policy : Value) : List Call :=
  pairs.map fun p => .put p.1 p.2 ttl policy

def evictions (ks : List Key) : List Call := ks.map fun k => .evict k.toValue

/-- Keys that are looked up one after another, and not refreshed. -/
def lookups (ks : List Key) (target : Option Target) : List Call :=
  ks.map fun k => .get k.toValue false target

end Call

namespace Station

variable [Delay τ] (h : Station τ σ) (c : Config τ) (s : σ)

/-- The desk that a call leaves. -/
def after (call : Call) : Desk τ := h.desk (h.answer c call s).2

/-- The desk that calls leave one after another. -/
def afterEach (calls : List Call) : Desk τ := h.desk (h.each c calls s).2

/-- Entries that are put at once leave what they leave one by one. -/
structure PutsAlike (pairs : List (Value × Value)) (ttl policy : Value) : Prop where
  table : (h.after c s (.putAll (.dict pairs) ttl policy)).table =
    (h.afterEach c s (Call.puts pairs ttl policy)).table
  statistics : (h.after c s (.putAll (.dict pairs) ttl policy)).statistics =
    (h.afterEach c s (Call.puts pairs ttl policy)).statistics
  heard : (h.after c s (.putAll (.dict pairs) ttl policy)).heard =
    (h.afterEach c s (Call.puts pairs ttl policy)).heard

/-- Keys that are evicted at once leave what they leave one by one, in whatever order listeners are
told of them. -/
structure EvictsAlike (keys : Value) (ks : List Key) : Prop where
  answer : (h.answer c (.evictAll keys) s).1 =
    .ok (.count ((h.each c (Call.evictions ks) s).1.countP Answer.isTrue))
  table : (h.after c s (.evictAll keys)).table = (h.afterEach c s (Call.evictions ks)).table
  statistics : (h.after c s (.evictAll keys)).statistics =
    (h.afterEach c s (Call.evictions ks)).statistics
  heard : ∃ told told', (h.after c s (.evictAll keys)).heard = (h.desk s).heard ++ told ∧
    (h.afterEach c s (Call.evictions ks)).heard = (h.desk s).heard ++ told' ∧
    (told.map (Prod.map id Event.asText)).Perm (told'.map (Prod.map id Event.asText))

/-- Keys that are looked up at once are found as they are one by one, in the order in which they
were first asked for. -/
structure FindsAlike (keys : Value) (ks : List Key) (target : Option Target) : Prop where
  answer : (h.answer c (.getAll keys target) s).1 =
    .ok (.found ((ks.zip (h.each c (Call.lookups ks target) s).1).filterMap fun p =>
      (Answer.found? p.2).map (p.1, ·)))
  statistics : (h.after c s (.getAll keys target)).statistics =
    (h.afterEach c s (Call.lookups ks target)).statistics
  live : (h.after c s (.getAll keys target)).table.live (h.clock s) =
    (h.afterEach c s (Call.lookups ks target)).table.live (h.clock s)

variable {h c s} {audience : σ → List ListenerId}

theorem Steady.putsAlike (steady : h.Steady audience) {pairs : List (Value × Value)}
    {batch : List Arguments.Entry}
    (valid : Arguments.entriesOf c.allowNull "put_all" pairs = .ok batch) (ttl policy : Value) :
    h.PutsAlike c s pairs ttl policy := by
  have hseen := Settled.putAll_seen valid (steady.settled c _ s)
    (steady.settledInTurn c (Call.puts pairs ttl policy) s)
  obtain ⟨htable, hstatistics, hheard⟩ := (Prod.mk.inj hseen).imp_right Prod.mk.inj
  exact ⟨htable, hstatistics, hheard⟩

theorem Steady.evictsAlike (steady : h.Steady audience) {keys : Value} {ks : List Key}
    (accepted : Arguments.keys keys "evict_all" = .ok ks) : h.EvictsAlike c s keys ks := by
  have hnodup := Arguments.nodup_keys accepted
  obtain ⟨hanswer, hseen⟩ := (steady.settled c (.evictAll keys) s).evictAll accepted rfl
  obtain ⟨hanswers, hseen'⟩ := Settled.evicts_seen
    (fun k mem => Arguments.keys_accepted accepted mem "evict") hnodup
    (steady.settledInTurn c (Call.evictions ks) s)
  obtain ⟨htable, hstatistics, hheard⟩ := (Prod.mk.inj hseen).imp_right Prod.mk.inj
  obtain ⟨htable', hstatistics', hheard'⟩ := (Prod.mk.inj hseen').imp_right Prod.mk.inj
  have hgone := Transaction.keysWhere_perm (t := (h.desk s).table) hnodup
  have hlength : (Transaction.keysWhere (h.desk s).table fun key _ =>
      (ks.map (·.text)).contains key).length = (ks.filter (h.desk s).table.has).length := by
    rw [hgone.length_eq, List.length_map]
  refine ⟨?_, htable.trans htable'.symm, ?_, _, _, hheard, hheard', ?_⟩
  · rw [hanswer, hanswers, hlength, List.countP_map, List.countP_eq_length_filter]
    rfl
  · rw [hlength] at hstatistics
    exact hstatistics.trans hstatistics'.symm
  · rw [map_heardOf, map_heardOf, List.map_map, List.map_map]
    refine List.Perm.flatMap_right _ ?_
    have hperm := hgone.map fun key => Event.evict (.plain key)
    rwa [List.map_map] at hperm

theorem Steady.findsAlike (steady : h.Steady audience) {keys : Value} {ks : List Key}
    {target : Option Target} (accepted : Arguments.keys keys "get_all" = .ok ks)
    (reads : ∀ k ∈ ks, (h.desk s).table.Reads (h.clock s) target k) :
    h.FindsAlike c s keys ks target := by
  obtain ⟨hanswer, hsought⟩ := (steady.settled c (.getAll keys target) s).getAll accepted reads
  obtain ⟨hanswers, hsought'⟩ := Settled.gets_sought
    (fun k mem => Arguments.keys_accepted accepted mem "get") reads
    (steady.settledInTurn c (Call.lookups ks target) s)
  refine ⟨?_, hsought.statistics.trans hsought'.statistics.symm,
    hsought.kept.live.trans hsought'.kept.live.symm⟩
  rw [hanswer, hanswers, ← List.map_prod_left_eq_zip, List.filterMap_map]
  refine congrArg (Except.ok ∘ Answer.found) (List.filterMap_congr fun k _ => ?_)
  exact congrArg (Option.map (k, ·)) (Answer.found?_ofHeld _).symm

/-- Batches agree with single calls at a steady station.  Entries that are put at once leave the
same table, the same counters and the same events, in the same order.  Keys that are evicted at once
leave the same table and counters, are told of as often, and are as many as are evicted one by one.
Keys that are looked up at once, if their rows can be read and what is live of them decoded, are
answered as they are one by one, and leave the same counters and the same live rows. -/
theorem batches_agree (steady : h.Steady audience) (c : Config τ) (s : σ) :
    (∀ pairs batch ttl policy, Arguments.entriesOf c.allowNull "put_all" pairs = .ok batch →
      h.PutsAlike c s pairs ttl policy) ∧
    (∀ keys ks, Arguments.keys keys "evict_all" = .ok ks → h.EvictsAlike c s keys ks) ∧
    ∀ keys ks target, Arguments.keys keys "get_all" = .ok ks →
      (∀ k ∈ ks, (h.desk s).table.Reads (h.clock s) target k) → h.FindsAlike c s keys ks target :=
  ⟨fun _ _ ttl policy valid => steady.putsAlike valid ttl policy,
    fun _ _ accepted => steady.evictsAlike accepted,
    fun _ _ _ accepted reads => steady.findsAlike accepted reads⟩

/-- A station with one listener. -/
def noticed : Station Int (Int × Desk Int) := attended [⟨"onlooker", "Onlooker"⟩]

/-- At 15 there are a number, another one that has expired, and a null. -/
def mixed : Int × Desk Int :=
  (15, opened (((Table.empty.insert "a" (written (.document (.object [("v", .int 1)])) none)).insert
    "b" (written (.document (.object [("v", .int 2)])) (some 10))).insert "c"
    (written (.document (.object [("null", .bool true)])) (some 20))))

/-- Keys that are asked for in this order, one of them twice. -/
def repeated : Value := .list [.str "c", .str "b", .str "a", .str "c"]

theorem batches_agree_mixed :
    noticed.PutsAlike .plain mixed [(.str "d", .int 4), (.str "a", .int 5)] (.int 10)
        (.str "sliding") ∧
      noticed.EvictsAlike .plain mixed repeated [.plain "c", .plain "b", .plain "a"] ∧
      noticed.FindsAlike .plain mixed repeated [.plain "c", .plain "b", .plain "a"] none ∧
      (noticed.answer .plain (.getAll repeated) mixed).1 =
        .ok (.found [(.plain "c", .nullMarker), (.plain "a", .int 1)]) := by
  obtain ⟨puts, evicts, finds⟩ :=
    batches_agree (steady_attended [⟨"onlooker", "Onlooker"⟩]) .plain mixed
  refine ⟨puts _ _ _ _ rfl, evicts _ _ rfl, finds _ _ none rfl fun k mem => ?_, by rfl⟩
  rcases List.mem_cons.1 mem with rfl | mem
  · exact .of_row rfl rfl rfl
  · rcases List.mem_cons.1 mem with rfl | mem
    · exact .of_row rfl rfl rfl
    · obtain rfl := List.mem_singleton.1 mem
      exact .of_row rfl rfl rfl

/-- At 20 there are a row that cannot be read, which has expired, and a number. -/
def spoiled : Int × Desk Int :=
  (20, opened (garbled.insert "a" (written (.document (.object [("v", .int 1)])) none)))

/-- An expired row that cannot be read fails a batch, and with it the lookup of every other key,
though alone each of these would be found. -/
theorem expired_row_spoils_batch :
    Arguments.keys (.list [.str "k", .str "a"]) "get_all" = .ok [.plain "k", .plain "a"] ∧
      (∀ row, spoiled.2.table.find? "k" = some row → row.isExpired 20 = true) ∧
      (noticed.answer .plain (.getAll (.list [.str "k", .str "a"])) spoiled).1 =
        .error (.unreadablePayload "\x7bbad" ⟨.propertyName, 1⟩) ∧
      ((noticed.each .plain (Call.lookups [.plain "k", .plain "a"] none) spoiled).1.map
        Answer.found?) = [none, some (.int 1)] ∧
      ¬ noticed.FindsAlike .plain spoiled (.list [.str "k", .str "a"]) [.plain "k", .plain "a"]
        none := by
  have hraises : (noticed.answer .plain (.getAll (.list [.str "k", .str "a"])) spoiled).1 =
      .error (.unreadablePayload "\x7bbad" ⟨.propertyName, 1⟩) := by rfl
  refine ⟨rfl, ?_, hraises, by rfl, fun alike => ?_⟩
  · intro row found
    have hrow : garbled.find? "k" = some row :=
      (Table.find?_insert_of_ne (by decide) garbled _).symm.trans found
    obtain rfl := Option.some.inj ((Table.find?_insert_self ..).symm.trans hrow)
    rfl
  · cases hraises.symm.trans alike.answer

end Station

end ExpiringStore
