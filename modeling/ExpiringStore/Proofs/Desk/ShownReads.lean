import ExpiringStore.Proofs.Desk.OnLive

/-!
# What reads show

    a read that is carried out shows what is live                     (shown_get, …, shown_size)
-/

namespace ExpiringStore.Call

variable {τ : Type} [OrderedInstant τ]
variable {c : Config τ} {now : τ} {t : Trail τ} {d d' : Desk τ} {ms : List (Mark τ)}
  {r : Except Failure Answer}

/-! ## Reads of one key -/

theorem shown_containsKey {key : Value} (hc : Carried now t.marks d d')
    (h : Accounts c (.containsKey key) t r) : Shown c (.containsKey key) now d d' r := by
  refine Vetted.shown h hc (fun f hf => ⟨rfl, by simp only [onLive, hf]; rfl⟩) fun k hk hrest => ?_
  obtain ⟨n, b, hmarks, rfl⟩ := hrest
  rw [hmarks] at hc
  have hd := hc.idle rfl
  obtain ⟨rfl, hc⟩ := hc.read
  obtain ⟨hdone, -⟩ := hc.quiet rfl
  refine .of_idle hd rfl rfl fun _ => ?_
  simp only [onLive, hk, Except.map, Table.isSome_find?_live, Transaction.reply_isLive hdone]

theorem fetchedLive_of_carried {k : String} {deeds : List (Deed τ)} {found : Option (Row τ)}
    (h : FetchedLive k deeds found) (hc : Carried now (deeds.map Deed.mark ++ ms) d d') :
    (d.table.live now).find? k = found ∧ Carried now ms d d' := by
  rw [Table.find?_live]
  cases h with
  | missing =>
    obtain ⟨hdone, hc⟩ := Carried.quiet hc rfl
    rw [← Transaction.reply_fetch hdone]
    exact ⟨rfl, hc⟩
  | expired row n dead =>
    obtain ⟨hdone, hc⟩ := Carried.quiet hc rfl
    obtain ⟨rfl, hc⟩ := Carried.read hc
    rw [← Transaction.reply_fetch hdone]
    exact ⟨Row.filter_of_dead dead, hc⟩
  | live row n live =>
    obtain ⟨hdone, hc⟩ := Carried.quiet hc rfl
    obtain ⟨rfl, hc⟩ := Carried.read hc
    rw [← Transaction.reply_fetch hdone]
    exact ⟨Row.filter_of_live live, hc⟩

theorem shown_getTtlPolicy {key : Value} (hc : Carried now t.marks d d')
    (h : Accounts c (.getTtlPolicy key) t r) : Shown c (.getTtlPolicy key) now d d' r := by
  refine Vetted.shown h hc (fun f hf => ⟨rfl, by simp only [onLive, hf]; rfl⟩) fun k hk hrest => ?_
  obtain ⟨deeds, found, hfetched, hmarks, rfl⟩ := hrest
  rw [hmarks, ← List.append_nil (deeds.map _)] at hc
  obtain ⟨hfound, hc⟩ := fetchedLive_of_carried hfetched hc
  refine .of_idle (hc.idle rfl) rfl rfl fun _ => ?_
  simp only [onLive, hk, Except.map, hfound]

theorem shown_getRemainingTtl {key : Value} (hc : Carried now t.marks d d')
    (h : Accounts c (.getRemainingTtl key) t r) : Shown c (.getRemainingTtl key) now d d' r := by
  refine Vetted.shown h hc (fun f hf => ⟨rfl, by simp only [onLive, hf]; rfl⟩) fun k hk hrest => ?_
  rcases hrest with ⟨deeds, hfetched, hmarks, rfl⟩ | ⟨row, deeds, n, hfetched, hmarks, rfl⟩
  · rw [hmarks, ← List.append_nil (deeds.map _)] at hc
    obtain ⟨hfound, hc⟩ := fetchedLive_of_carried hfetched hc
    refine .of_idle (hc.idle rfl) rfl rfl fun _ => ?_
    simp only [onLive, hk, Except.bind, hfound]
  · rw [hmarks] at hc
    obtain ⟨hfound, hc⟩ := fetchedLive_of_carried hfetched hc
    have hd := hc.idle rfl
    obtain ⟨rfl, -⟩ := hc.read
    refine .of_idle hd rfl rfl fun _ => ?_
    simp only [onLive, hk, Except.bind, hfound]

/-! ## Batches -/

/-- The values of what is fetched are the values of what is live. -/
theorem valuesLive_of_fetched {t t' : Table τ} {ks : List Key} {rows : List (String × Row τ)}
    {target : Option Target}
    (h : (Transaction.fetchMany (ks.map (·.text))).commit t = .ok (rows, t')) :
    valuesLive now (t.live now) target ks = liveValues target now rows := by
  have hrows := Transaction.reply_fetchMany h
  have hlive : (t.live now).select (fun k _ => (ks.map (·.text)).contains k) =
      rows.filter fun p => !p.2.isExpired now := by
    rw [hrows, Table.select_live]
    unfold Table.select
    rw [List.filter_filter]
    exact List.filter_congr fun p _ => Bool.and_comm _ _
  unfold valuesLive
  rw [hlive, liveValues_filter]

theorem valuesLive_nil (l : Table τ) (target : Option Target) :
    valuesLive now l target [] = .ok [] := by
  have hselect : l.select (fun k _ => ([] : List String).contains k) = [] := List.filter_false _
  unfold valuesLive
  rw [List.map_nil, hselect]
  rfl

theorem Carried.tallied {asked found : Nat} (h : Carried now (tallied asked found) d d') :
    d'.table = d.table ∧
      d'.statistics.score = d.statistics.score + { found, missed := asked - found } := by
  have hmissed {d : Desk τ} (h : Carried now (if found = asked then [] else
      [.noted (.record .misses ((asked : Int) - found))]) d d') : d'.table = d.table ∧
      d'.statistics.score = d.statistics.score + { missed := asked - found } := by
    split at h
    · next heq =>
      obtain rfl := h.idle rfl
      subst heq
      refine ⟨rfl, ?_⟩
      rw [Int.sub_self]
      exact (Score.add_nothing _).symm
    · exact h.recorded
  unfold Call.tallied at h
  split at h
  · next heq =>
    obtain rfl := heq
    exact hmissed h
  · obtain ⟨htable, hscore⟩ := hmissed (Carried.noted h)
    refine ⟨htable, ?_⟩
    rw [hscore, Desk.note_statistics, Statistics.after, Statistics.score_record]
    simp [Statistics.Counter.score, Score.add_eq]

theorem tally_getAll {keys : Value} {target : Option Target} {l : Table τ} {ks : List Key}
    {found : List (String × Value)} (hks : Arguments.keys keys "get_all" = .ok ks)
    (hfound : valuesLive now l target ks = .ok found) :
    (Call.getAll keys target).tally c now l =
      { found := found.length, missed := ks.length - found.length } := by
  unfold tally
  simp only [onLive, hks, Except.bind, hfound, Except.map]

theorem shown_getAll {keys : Value} {target : Option Target} (hc : Carried now t.marks d d')
    (h : Accounts c (.getAll keys target) t r) : Shown c (.getAll keys target) now d d' r := by
  refine Vetted.shown h hc (fun f hf => ⟨rfl, by simp only [onLive, hf]; rfl⟩)
    fun ks hks hrest => ?_
  have hanswer : (Call.getAll keys target).onLive c now (d.table.live now) =
      (valuesLive now (d.table.live now) target ks).map fun found =>
        .found (ks.filterMap fun k => (found.lookup k.text).map (k, ·)) := by
    simp only [onLive, hks, Except.bind]
  split at hrest
  · next hempty =>
    obtain ⟨hmarks, rfl⟩ := hrest
    obtain rfl := List.isEmpty_iff.1 hempty
    rw [hmarks] at hc
    have hnone : valuesLive now (d.table.live now) target [] = .ok [] := valuesLive_nil _ _
    refine .of_idle (hc.idle rfl) rfl ?_ fun _ => by rw [hanswer, hnone]; rfl
    rw [tally_getAll hks hnone]
    rfl
  · obtain ⟨rows, n, hrest⟩ := hrest
    cases hv : liveValues target n rows with
    | ok found =>
      rw [hv] at hrest
      obtain ⟨rfl, hmarks⟩ := hrest
      rw [hmarks] at hc
      obtain ⟨hdone, hc⟩ := Carried.quiet hc rfl
      obtain ⟨rfl, hc⟩ := Carried.read hc
      rw [← valuesLive_of_fetched hdone] at hv
      obtain ⟨htable, hscore⟩ := Carried.tallied hc
      exact .of_same (by rw [htable]) rfl (by rw [hscore, tally_getAll hks hv])
        fun _ => by rw [hanswer, hv]; rfl
    | error f =>
      rw [hv] at hrest
      obtain ⟨rfl, hmarks⟩ := hrest
      rw [hmarks] at hc
      have hd := hc.idle rfl
      obtain ⟨hdone, hc⟩ := hc.quiet rfl
      obtain ⟨rfl, hc⟩ := hc.read
      rw [← valuesLive_of_fetched hdone] at hv
      have hfails : (Call.getAll keys target).onLive c n (d.table.live n) = .error f := by
        rw [hanswer, hv]
        rfl
      exact .of_idle hd rfl (tally_of_error hfails) fun _ => hfails.symm

/-! ## Keys and their number -/

theorem lists_live {pattern : String} (hc : Carried now t.marks d d') (h : Lists pattern t r) :
    d' = d ∧ r = .ok (.texts (Transaction.keysWhere (d.table.live now) fun k _ =>
      Like.selects (likeOfGlob pattern) k)) := by
  obtain ⟨n, keys, hmarks, rfl⟩ := h
  rw [hmarks] at hc
  have hd := hc.idle rfl
  obtain ⟨rfl, hc⟩ := hc.read
  obtain ⟨hdone, -⟩ := hc.quiet rfl
  exact ⟨hd, by rw [Transaction.reply_liveKeys_live hdone]⟩

theorem shown_getKeys {pattern : Value} (hc : Carried now t.marks d d')
    (h : Accounts c (.getKeys pattern) t r) : Shown c (.getKeys pattern) now d d' r := by
  refine Vetted.shown h hc (fun f hf => ⟨rfl, by simp only [onLive, hf]; rfl⟩) fun g hg hrest => ?_
  obtain ⟨hd, hr⟩ := lists_live hc hrest
  refine .of_idle hd rfl rfl fun _ => ?_
  simp only [onLive, hg, Except.map, hr]

omit [OrderedInstant τ] in
/-- Every key is listed for the pattern of any sequence. -/
theorem keysWhere_all (l : Table τ) :
    Transaction.keysWhere l (fun k _ => Like.selects (likeOfGlob "*") k) = l.keys := by
  unfold Transaction.keysWhere Table.select Table.keys
  simp only [Like.selects_all, List.filter_true]

theorem shown_getAllKeys (hc : Carried now t.marks d d') (h : Accounts c .getAllKeys t r) :
    Shown c .getAllKeys now d d' r := by
  obtain ⟨hd, hr⟩ := lists_live hc h
  refine .of_idle hd rfl rfl fun _ => ?_
  simp only [onLive, hr, keysWhere_all]

/-- A count is of what is live, if no count is kept from before. -/
theorem shown_size (past : ∀ n at', d.memo.counted = some (n, at') → at' ≤ now)
    (hc : Carried now t.marks d d') (h : Accounts c .size t r) : Shown c .size now d d' r := by
  cases h with
  | @recalled n at' m count counted fresh marks =>
    rw [marks] at hc
    have hd := hc.idle rfl
    obtain ⟨rfl, hc⟩ := hc.read
    obtain ⟨rfl, -⟩ := hc.recalled
    refine .of_idle hd rfl rfl fun about => ?_
    -- Within a window of no length there is only what was counted later.
    have hlater : Instant.isNegative (Instant.minus n at') = true := by
      rwa [show c.sizeWindow = Instant.ofSeconds 0 from about] at fresh
    rw [OrderedInstant.isNegative_minus (past _ _ counted)] at hlater
    cases hlater
  | counted stale marks =>
    rw [marks] at hc
    obtain ⟨rfl, hc⟩ := hc.read
    obtain ⟨-, hc⟩ := hc.recalled
    obtain ⟨-, hc⟩ := hc.recalled
    obtain ⟨hdone, hc⟩ := hc.quiet rfl
    obtain rfl := hc.noted.idle rfl
    refine .of_same rfl rfl (Score.add_nothing _).symm fun _ => ?_
    rw [Transaction.reply_countLive hdone]
    rfl

/-! ## Lookups -/

/-- What a lookup leaves of the removal of an expired entry leaves what is live as it is. -/
theorem Swept.live {k : Key} {troubles : List (Trouble τ)} {swept : List (Mark τ)}
    (h : Swept k now troubles swept) (hc : Carried now (swept ++ ms) d d') :
    ∃ d₁, d₁.table.live now = d.table.live now ∧ d₁.statistics = d.statistics ∧
      Carried now ms d₁ d' := by
  have hsweep {b : Bool} {t : Table τ}
      (hdone : (Transaction.removeExpiredKey k.text now).commit d.table = .ok (b, t)) :
      t.live now = d.table.live now :=
    Transaction.live_of_sweep (· == k.text) (fun key old => rfl) hdone
  cases h with
  | removed =>
    obtain ⟨t, hdone, hc⟩ := Carried.committed hc
    exact ⟨Desk.note { d with table := t } .forgetSize, hsweep hdone, rfl, hc.noted⟩
  | gone =>
    obtain ⟨t, hdone, hc⟩ := Carried.committed hc
    exact ⟨{ d with table := t }, hsweep hdone, rfl, hc⟩
  | missed f met => exact ⟨d, rfl, rfl, hc⟩

theorem tally_get {key : Value} {refresh : Bool} {target : Option Target} {k : Key}
    (hk : Arguments.key key "get" = .ok k) (l : Table τ) :
    (Call.get key refresh target).tally c now l =
      match lookUpLive l target k with
      | .ok (.lookup .miss) => { missed := 1 }
      | .ok _ => { found := 1 }
      | .error _ => {} := by
  have hanswer : (Call.get key refresh target).onLive c now l = lookUpLive l target k := by
    simp only [onLive, hk, Except.bind]
  unfold tally
  rw [hanswer]
  rcases lookUpLive l target k with f | a
  · rfl
  · cases a with
    | lookup x => cases x <;> rfl
    | _ => rfl

variable [Delay τ]

/-- No refresh of a live entry fails where the storage works. -/
theorem not_possible_touch {k : String} {f : Failure} :
    ¬ (Trouble.attempt (.touch k now) f).IsPossible c := by
  rintro (⟨t, hread, hfailed⟩ | ⟨⟨key, n, h⟩, -⟩)
  · cases Transaction.unstorable_of_commit hread hfailed
  · cases h

/-- What a lookup that finds a live row leaves of what is live. -/
theorem Touched.leaves {key : Value} {k : Key} {refresh : Bool} {target : Option Target}
    {row : Row τ} {touched : List (Mark τ)} (hk : Arguments.key key "get" = .ok k)
    (hfound : d.table.find? k.text = some row) (live : row.isExpired now = false)
    (h : Touched k refresh row now t.troubles touched)
    (possible : ∀ x ∈ t.troubles, x.IsPossible c) (hc : Carried now (touched ++ ms) d d') :
    ∃ d₁, d₁.statistics = d.statistics ∧ Carried now ms d₁ d' ∧
      (d'.table = d₁.table → (Call.get key refresh target).Leaves c now (d.table.live now)
        (d'.table.live now)) := by
  have hlive : (d.table.live now).find? k.text = some row :=
    Table.find?_live_eq_some.2 ⟨hfound, live⟩
  have hacts : (Call.get key refresh target).acts c now (d.table.live now) =
      if refresh && row.slides then some (.touch k.text now) else none := by
    simp only [acts, hk, Except.toOption, Option.bind_some, hlive]
  cases h with
  | still hstill =>
    refine ⟨d, rfl, hc, fun htable => ?_⟩
    unfold Leaves
    rw [hacts, hstill, htable]
    rfl
  | moved hmoves =>
    obtain ⟨t, hdone, hc⟩ := Carried.committed hc
    refine ⟨{ d with table := t }, rfl, hc, fun htable => ?_⟩
    unfold Leaves
    rw [hacts, hmoves, htable]
    exact Transaction.leads_commit (Transaction.isAt_touch hfound live) hdone
  | missed hmoves f met => exact absurd (possible _ met) not_possible_touch

theorem shown_get {key : Value} {refresh : Bool} {target : Option Target}
    (possible : ∀ x ∈ t.troubles, x.IsPossible c) (hc : Carried now t.marks d d')
    (h : Accounts c (.get key refresh target) t r) :
    Shown c (.get key refresh target) now d d' r := by
  refine Vetted.shown h hc (fun f hf => ⟨by simp only [acts, hf]; rfl,
    by simp only [onLive, hf]; rfl⟩) fun k hk hrest => ?_
  have hanswer : (Call.get key refresh target).onLive c now (d.table.live now) =
      lookUpLive (d.table.live now) target k := by simp only [onLive, hk, Except.bind]
  have hscore : (Call.get key refresh target).tally c now (d.table.live now) = _ := tally_get hk _
  have hmissing (hfound : (d.table.live now).find? k.text = none) :
      lookUpLive (d.table.live now) target k = .ok (.lookup .miss) ∧
      (Call.get key refresh target).acts c now (d.table.live now) = none ∧
      (Call.get key refresh target).tally c now (d.table.live now) =
        Statistics.Counter.score 1 .misses := by
    have hmiss : lookUpLive (d.table.live now) target k = .ok (.lookup .miss) := by
      simp only [lookUpLive, hfound]
    refine ⟨hmiss, ?_, by rw [hscore, hmiss]; rfl⟩
    simp only [acts, hk, hfound, Except.toOption, Option.bind_some, Option.bind_none]
  cases hrest with
  | missing marks =>
    rw [marks] at hc
    obtain ⟨hdone, hc⟩ := hc.quiet rfl
    obtain ⟨htable, hs⟩ := hc.recorded
    have hfound : (d.table.live now).find? k.text = none := by
      rw [Table.find?_live, ← Transaction.reply_fetch hdone]
      rfl
    obtain ⟨hmiss, hacts, htally⟩ := hmissing hfound
    exact .of_same (by rw [htable]) (by rw [hacts]; rfl) (by rw [hs, htally])
      fun _ => by rw [hanswer, hmiss]
  | @expired row n swept dead sweep marks =>
    rw [marks, List.append_assoc] at hc
    obtain ⟨hdone, hc⟩ := Carried.quiet hc rfl
    obtain ⟨rfl, hc⟩ := hc.read
    obtain ⟨d₁, hlive, hstill, hc⟩ := sweep.live hc
    obtain ⟨htable, hs⟩ := hc.recorded
    have hfound : (d.table.live n).find? k.text = none := by
      rw [Table.find?_live, ← Transaction.reply_fetch hdone]
      exact Row.filter_of_dead dead
    obtain ⟨hmiss, hacts, htally⟩ := hmissing hfound
    exact .of_same (by rw [htable, hlive]) (by rw [hacts]; rfl) (by rw [hs, htally, hstill])
      fun _ => by rw [hanswer, hmiss]
  | @found row n touched v live touch decodes marks =>
    rw [marks, List.append_assoc] at hc
    obtain ⟨hdone, hc⟩ := Carried.quiet hc rfl
    obtain ⟨rfl, hc⟩ := hc.read
    have hrow := (Transaction.reply_fetch hdone).symm
    have hlook : lookUpLive (d.table.live n) target k = .ok (.lookup (.ofDecoded v)) := by
      simp only [lookUpLive, Table.find?_live_eq_some.2 ⟨hrow, live⟩, decodes, Except.map,
        Function.comp_apply]
    obtain ⟨d₁, hstill, hc, hleaves⟩ := touch.leaves hk hrow live possible hc
    obtain ⟨htable, hs⟩ := hc.recorded
    refine ⟨fun _ => by rw [hanswer, hlook], ?_, hleaves htable⟩
    rw [hs, hscore, hlook, hstill]
    cases v <;> rfl
  | @undecodable row n touched f live touch fails marks =>
    rw [marks, ← List.append_nil touched] at hc
    obtain ⟨hdone, hc⟩ := Carried.quiet hc rfl
    obtain ⟨rfl, hc⟩ := Carried.read hc
    have hrow := (Transaction.reply_fetch hdone).symm
    have hlook : lookUpLive (d.table.live n) target k = .error f := by
      simp only [lookUpLive, Table.find?_live_eq_some.2 ⟨hrow, live⟩, fails, Except.map]
    obtain ⟨d₁, hstill, hc, hleaves⟩ := touch.leaves hk hrow live possible hc
    obtain rfl := hc.idle rfl
    refine ⟨fun _ => by rw [hanswer, hlook], ?_, hleaves rfl⟩
    rw [hscore, hlook, hstill, Score.add_nothing]

end ExpiringStore.Call
