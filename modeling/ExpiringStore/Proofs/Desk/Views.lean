import ExpiringStore.Proofs.Call.Accepted
import ExpiringStore.Proofs.Desk.Shown

/-!
# The views of what is live

Whether an entry is live is seen in many ways: its key is looked up alone or in a batch, it is
contained, listed or counted, its policy and its time are asked for, and what has expired is cleaned
up.  All of them agree.

    listed   =   the keys of the live part of the table, in order
    a view of k says that it is there   ↔   k is listed                       (views_agree)
-/

namespace ExpiringStore

variable {τ σ : Type}

namespace Table

def Decodes (t : Table τ) : Prop :=
  ∀ key row, t.find? key = some row →
    row.payload.readError? = none ∧ ∃ v, Payload.decode row.payload.value = .ok v

theorem decodes_of_rows {t : Table τ} (h : t.rows.all (fun p => p.2.payload.readError?.isNone &&
    (Payload.decode p.2.payload.value).toOption.isSome) = true) : t.Decodes := by
  intro key row found
  obtain ⟨hread, hdecode⟩ := Bool.and_eq_true_iff.1
    (List.all_eq_true.1 h _ ((mem_rows_iff t key row).2 found))
  refine ⟨Option.isNone_iff_eq_none.1 hread, ?_⟩
  cases hv : Payload.decode row.payload.value with
  | error f =>
    rw [hv] at hdecode
    cases hdecode
  | ok v => exact ⟨v, rfl⟩

theorem mem_keys (t : Table τ) (key : String) : key ∈ t.keys ↔ (t.find? key).isSome = true := by
  constructor
  · intro mem
    obtain ⟨⟨k, row⟩, hrow, rfl⟩ := List.mem_map.1 mem
    rw [(mem_rows_iff t k row).1 hrow]
    rfl
  · intro found
    obtain ⟨row, hrow⟩ := Option.isSome_iff_exists.1 found
    exact List.mem_map.2 ⟨(key, row), (mem_rows_iff t key row).2 hrow, rfl⟩

theorem mem_keys_live [Instant τ] (t : Table τ) (now : τ) (key : String) :
    key ∈ (t.live now).keys ↔ ∃ row, t.find? key = some row ∧ row.isExpired now = false := by
  rw [mem_keys, Option.isSome_iff_exists]
  exact exists_congr fun row => find?_live_eq_some

/-- The rows of a table whose keys are those of its live part are the live ones. -/
theorem contains_keys_live [Instant τ] {t : Table τ} {now : τ} {key : String} {row : Row τ}
    (found : t.find? key = some row) :
    (t.live now).keys.contains key = !row.isExpired now := by
  rw [Bool.eq_iff_iff, List.contains_iff_mem, mem_keys, isSome_find?_live, found, Option.any_some]

theorem filter_congr {t : Table τ} {keep keep' : String → Row τ → Bool}
    (h : ∀ p ∈ t.rows, keep p.1 p.2 = keep' p.1 p.2) : t.filter keep = t.filter keep' := by
  unfold filter
  congr 1
  exact List.filter_congr h

theorem keys_increasing (t : Table τ) : t.keys.Pairwise (· < ·) := List.pairwise_map.2 t.sorted

end Table

namespace Call

variable [OrderedInstant τ] {t : Table τ}

/-- A lookup finds what is live. -/
theorem lookUpLive_found (decodes : t.Decodes) (now : τ) (k : Key) :
    ∃ r : Lookup, lookUpLive (t.live now) none k = .ok (.lookup r) ∧
      (r.isFound = true ↔ k.text ∈ (t.live now).keys) := by
  rw [Table.mem_keys]
  unfold lookUpLive
  cases hf : (t.live now).find? k.text with
  | none => exact ⟨.miss, rfl, by simp [Lookup.isFound]⟩
  | some row =>
    obtain ⟨-, v, hv⟩ := decodes _ row (Table.find?_live_eq_some.1 hf).1
    refine ⟨.ofDecoded v, by simp only [Payload.decode_key hv, Except.map, Function.comp_apply], ?_⟩
    cases v <;> simp [Lookup.ofDecoded, Lookup.isFound]

/-- The keys that a batch answers are those of which something is found. -/
theorem mem_found (ks : List Key) (found : List (String × Value)) (k : Key) :
    (∃ e ∈ ks.filterMap fun k => (found.lookup k.text).map (k, ·), e.1 = k) ↔
      k ∈ ks ∧ (found.lookup k.text).isSome = true := by
  rw [← List.mem_map, map_fst_filterMap_lookup, List.mem_filter]

/-- A batch finds what is live. -/
theorem valuesLive_found (decodes : t.Decodes) (now : τ) (ks : List Key) :
    ∃ found, valuesLive now (t.live now) none ks = .ok found ∧ ∀ k ∈ ks,
      ((found.lookup k.text).isSome = true ↔ k.text ∈ (t.live now).keys) := by
  have hrows {key : String} {row : Row τ} :
      (key, row) ∈ (t.live now).select (fun k _ => (ks.map (·.text)).contains k) ↔
        (t.live now).find? key = some row ∧ key ∈ ks.map (·.text) := by
    unfold Table.select
    rw [List.mem_filter, Table.mem_rows_iff, List.contains_iff_mem]
  rcases liveValues_cases none now
    ((t.live now).select fun k _ => (ks.map (·.text)).contains k) with
    ⟨found, hfound, hcases⟩ | ⟨key, row, f, mem, -, hfails, -⟩
  · refine ⟨found, hfound, fun k hk => ?_⟩
    rw [Table.mem_keys]
    rcases hcases k.text with ⟨hnone, hdead⟩ | ⟨row, v, mem, -, hlookup, -⟩
    · rw [hnone]
      cases hf : (t.live now).find? k.text with
      | none => rfl
      | some row =>
        have hlive := (Table.find?_live_eq_some.1 hf).2
        cases hlive.symm.trans (hdead row (hrows.2 ⟨hf, List.mem_map_of_mem hk⟩))
    · rw [hlookup, (hrows.1 mem).1]
      rfl
  · obtain ⟨-, v, hv⟩ := decodes _ row (Table.find?_live_eq_some.1 (hrows.1 mem).1).1
    cases hfails.symm.trans (Payload.decode_key hv _)

end Call

namespace Station

variable [OrderedInstant τ] [Delay τ] (h : Station τ σ) (c : Config τ) (s : σ)

/-- All views of a key agree with what is listed. -/
structure Agree (key : Value) (k : Key) (listed : List String) : Prop where
  lookup : ∃ r : Lookup, (h.answer c (.get key false) s).1 = .ok (.lookup r) ∧
    (r.isFound = true ↔ k.text ∈ listed)
  contained : ∃ b : Bool, (h.answer c (.containsKey key) s).1 = .ok (.bool b) ∧
    (b = true ↔ k.text ∈ listed)
  batch (keys : Value) (ks : List Key) (accepted : Arguments.keys keys "get_all" = .ok ks)
    (asked : ∃ k' ∈ ks, k'.text = k.text) : ∃ entries : List (Key × Value),
      (h.answer c (.getAll keys) s).1 = .ok (.found entries) ∧
        ((∃ e ∈ entries, e.1.text = k.text) ↔ k.text ∈ listed)
  policy : ∃ p : Option Policy,
    (h.answer c (.getTtlPolicy key) s).1 = .ok (.optional Policy.toValue p) ∧
      (p.isSome = true ↔ k.text ∈ listed)
  /-- If the time that is left fits a duration. -/
  remaining (fits : ∀ row reason, (h.desk s).table.find? k.text = some row →
      row.lifetime.remainingDuration (h.clock s) ≠ .error reason) : ∃ left : Option Duration,
    (h.answer c (.getRemainingTtl key) s).1 = .ok (.optional .duration left) ∧
      (left.isSome = true ↔ k.text ∈ listed ∧
        ∃ row, (h.desk s).table.find? k.text = some row ∧ row.ttl.isSome = true)

variable {h c s}

theorem Agree.of_live (obliging : h.Obliging c) (decodes : (h.desk s).table.Decodes) {key : Value}
    {k : Key} (valid : Arguments.key key "get" = .ok k) :
    h.Agree c s key k ((h.desk s).table.live (h.clock s)).keys := by
  have hread : (h.desk s).table.IsReadable := fun key row found => (decodes key row found).1
  have hanswer (call : Call) (about : call.IsAboutLive c) (other : call ≠ .size) :
      (h.answer c call s).1 = call.onLive c (h.clock s) ((h.desk s).table.live (h.clock s)) :=
    (shows obliging hread call fun sized => absurd sized other).answer about
  constructor
  case lookup =>
    obtain ⟨r, hr, hfound⟩ := Call.lookUpLive_found decodes (h.clock s) k
    refine ⟨r, ?_, hfound⟩
    rw [hanswer (.get key false) trivial (by simp)]
    simp only [Call.onLive, valid, Except.bind, hr]
  case contained =>
    refine ⟨_, ?_, (Table.mem_keys ..).symm⟩
    rw [hanswer (.containsKey key) trivial (by simp)]
    simp only [Call.onLive, Arguments.key_accepted valid, Except.map]
  case batch =>
    intro keys ks accepted asked
    obtain ⟨found, hfound, hkeys⟩ := Call.valuesLive_found decodes (h.clock s) ks
    refine ⟨ks.filterMap fun k => (found.lookup k.text).map (k, ·), ?_, ?_⟩
    · rw [hanswer (.getAll keys) trivial (by simp)]
      simp only [Call.onLive, accepted, Except.bind, hfound, Except.map]
    · obtain ⟨k', hk', htext⟩ := asked
      rw [← htext, ← hkeys k' hk']
      constructor
      · rintro ⟨e, mem, hsame⟩
        rw [← hsame]
        exact ((Call.mem_found ks found e.1).1 ⟨e, mem, rfl⟩).2
      · intro hlookup
        obtain ⟨e, mem, he⟩ := (Call.mem_found ks found k').2 ⟨hk', hlookup⟩
        exact ⟨e, mem, by rw [he]⟩
  case policy =>
    refine ⟨(((h.desk s).table.live (h.clock s)).find? k.text).map fun row =>
      Policy.ofStored row.policy, ?_, ?_⟩
    · rw [hanswer (.getTtlPolicy key) trivial (by simp)]
      simp only [Call.onLive, Arguments.key_accepted valid, Except.map]
    · rw [Option.isSome_map, Table.mem_keys]
  case remaining =>
    intro fits
    have hlive := hanswer (.getRemainingTtl key) trivial (by simp)
    simp only [Call.onLive, Arguments.key_accepted valid, Except.bind] at hlive
    rw [hlive, Table.mem_keys]
    cases hf : ((h.desk s).table.live (h.clock s)).find? k.text with
    | none => exact ⟨none, rfl, by simp⟩
    | some row =>
      obtain ⟨hrow, live⟩ := Table.find?_live_eq_some.1 hf
      cases hd : row.lifetime.remainingDuration (h.clock s) with
      | error reason => exact absurd hd (fits row reason hrow)
      | ok left =>
        refine ⟨left, by simp only [hd]; rfl, ?_⟩
        rw [Row.isSome_remainingDuration live hd]
        constructor
        · exact fun timed => ⟨rfl, row, hrow, timed⟩
        · rintro ⟨-, row', hrow', timed⟩
          rwa [Option.some.inj (hrow.symm.trans hrow')]

/-- A count is of what is live, unless one is kept from before. -/
theorem answer_size (obliging : h.Obliging c) (readable : (h.desk s).table.IsReadable)
    (uncounted : ∀ n at', (h.desk s).memo.counted = some (n, at') →
      Instant.before (Instant.minus (h.clock s) at') c.sizeWindow = false) :
    (h.answer c .size s).1 = .ok (.count ((h.desk s).table.live (h.clock s)).size) := by
  have hc := carried obliging readable .size
  have hsizes : Call.Sizes c (h.trail c .size s) (h.answer c .size s).1 :=
    accounts obliging readable .size rfl
  generalize (h.answer c .size s).1 = r at hsizes
  cases hsizes with
  | recalled counted fresh marks =>
    rw [marks] at hc
    obtain ⟨rfl, hrest⟩ := hc.read
    obtain ⟨rfl, -⟩ := hrest.recalled
    cases (uncounted _ _ counted).symm.trans fresh
  | counted stale marks =>
    rw [marks] at hc
    obtain ⟨rfl, hrest⟩ := hc.read
    obtain ⟨hdone, -⟩ := hrest.recalled.2.recalled.2.quiet rfl
    rw [Transaction.reply_countLive hdone]

/-- A cleanup keeps what is live, and counts what it removes. -/
theorem answer_cleanupExpired (obliging : h.Obliging c)
    (readable : (h.desk s).table.IsReadable) :
    (h.desk (h.answer c .cleanupExpired s).2).table = (h.desk s).table.live (h.clock s) ∧
      (h.answer c .cleanupExpired s).1 =
        .ok (.count ((h.desk s).table.select fun _ row => row.isExpired (h.clock s)).length) := by
  have hc := carried obliging readable .cleanupExpired
  obtain ⟨n, count, hr, hmarks⟩ := accounts obliging readable .cleanupExpired rfl
  rw [hmarks] at hc
  obtain ⟨rfl, hrest⟩ := Call.Carried.read hc
  obtain ⟨t, hdone, hlast⟩ := Call.Carried.committed hrest
  have htable : (h.desk (h.answer c .cleanupExpired s).2).table = t := by
    split at hlast
    · rw [hlast.noted.idle rfl]
      rfl
    · rw [Call.Carried.idle hlast rfl]
  refine ⟨?_, by rw [hr, Transaction.reply_removeExpired hdone]⟩
  rw [htable]
  refine Table.eq_of_find? fun key => ?_
  rw [Transaction.find?_commit hdone, Table.find?_live]
  rfl

/-- All views of what is live agree.  What is listed is what has not expired, in order, and is
counted as it is unless a count is kept from before; every view of a key tells whether it is listed;
and a cleanup removes all that is not. -/
theorem views_agree (obliging : h.Obliging c) (decodes : (h.desk s).table.Decodes) :
    ∃ listed : List String,
      (h.answer c .getAllKeys s).1 = .ok (.texts listed) ∧ listed.Pairwise (· < ·) ∧
      (∀ key, key ∈ listed ↔ ∃ row, (h.desk s).table.find? key = some row ∧
        row.isExpired (h.clock s) = false) ∧
      (∀ key k, Arguments.key key "get" = .ok k → h.Agree c s key k listed) ∧
      ((∀ n at', (h.desk s).memo.counted = some (n, at') →
          Instant.before (Instant.minus (h.clock s) at') c.sizeWindow = false) →
        (h.answer c .size s).1 = .ok (.count listed.length)) ∧
      (h.desk (h.answer c .cleanupExpired s).2).table =
        (h.desk s).table.filter (fun key _ => listed.contains key) ∧
      (h.answer c .cleanupExpired s).1 =
        .ok (.count ((h.desk s).table.select fun key _ => !listed.contains key).length) := by
  have hread : (h.desk s).table.IsReadable := fun key row found => (decodes key row found).1
  obtain ⟨htable, hcount⟩ := answer_cleanupExpired obliging hread
  have hlisted (p : String × Row τ) (mem : p ∈ (h.desk s).table.rows) :
      ((h.desk s).table.live (h.clock s)).keys.contains p.1 = !p.2.isExpired (h.clock s) :=
    Table.contains_keys_live ((Table.mem_rows_iff ..).1 mem)
  refine ⟨((h.desk s).table.live (h.clock s)).keys, ?_, Table.keys_increasing _,
    Table.mem_keys_live _ _, fun key k valid => .of_live obliging decodes valid,
    fun uncounted => ?_, ?_, ?_⟩
  · exact (shows obliging hread .getAllKeys nofun).answer trivial
  · rw [answer_size obliging hread uncounted, Table.size, Table.keys, List.length_map]
  · rw [htable]
    exact Table.filter_congr fun p mem => (hlisted p mem).symm
  · rw [hcount, Table.select, Table.select]
    congr 3
    refine List.filter_congr fun p mem => ?_
    rw [hlisted p mem, Bool.not_not]

/-- Three numbers, of which the second has expired by 15. -/
def numbered : Table Int :=
  ((Table.empty.insert "a" (written (.document (.object [("v", .int 1)])) none)).insert "b"
    (written (.document (.object [("v", .int 2)])) (some 10))).insert "c"
    (written (.document (.object [("v", .int 3)])) (some 20))

theorem views_agree_numbered :
    (∀ key k, Arguments.key key "get" = .ok k →
      (plain false).Agree .plain (15, opened numbered) key k ["a", "c"]) ∧
    ((plain false).answer .plain .size (15, opened numbered)).1 = .ok (.count 2) ∧
    ((plain false).answer .plain .cleanupExpired (15, opened numbered)).1 = .ok (.count 1) := by
  have hdecodes : ((plain false).desk (15, opened numbered)).table.Decodes :=
    Table.decodes_of_rows rfl
  obtain ⟨listed, hlisted, -, -, hagree, hsize, -, hcleanup⟩ :=
    views_agree (obliging_plain false .plain) hdecodes
  have hkeys : ((plain false).answer .plain .getAllKeys (15, opened numbered)).1 =
      .ok (.texts ["a", "c"]) := by rfl
  obtain rfl : listed = ["a", "c"] := by
    have htexts := Except.ok.inj (hlisted.symm.trans hkeys)
    exact List.map_injective_iff.2 (fun _ _ => Value.str.inj)
      (Value.list.inj (Answer.value.inj htexts))
  exact ⟨hagree, hsize nofun, hcleanup⟩

end Station

end ExpiringStore
