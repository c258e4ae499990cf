import ExpiringStore.Proofs.Call.Accepted
import ExpiringStore.Proofs.Desk.Steady
import ExpiringStore.Proofs.Table.Turnover

/-!
# Batches of writes and removals

What a batch of entries leaves is what the entries leave that are put one after another.  The table
keeps all of them or none, since all have the same lifetime.  Keys that are removed at once are
removed as if one after another, but in the order of the table.

    seen d                    the table, the counters, and what was heard
    put_all entries           leaves what   put e₁, put e₂, …   leave         (Settled.putAll_seen)
    evict_all keys            leaves what   evict k₁, evict k₂, …   leave         (Settled.evictAll)
-/

namespace ExpiringStore

variable {τ : Type} [Instant τ]

/-- What can be seen of a desk: all but the counted size. -/
def Desk.seen (d : Desk τ) : Table τ × Statistics × List (ListenerId × Event) :=
  (d.table, d.statistics, d.heard)

def heardOf (ls : List ListenerId) (es : List Event) : List (ListenerId × Event) :=
  es.flatMap fun e => ls.map (·, e)

@[simp] theorem heardOf_nil (ls : List ListenerId) : heardOf ls [] = [] := rfl

theorem heardOf_cons (ls : List ListenerId) (e : Event) (es : List Event) :
    heardOf ls (e :: es) = ls.map (·, e) ++ heardOf ls es := rfl

/-! ## Keys of a table -/

/-- Is there a row of a key? -/
def Table.has (t : Table τ) (k : Key) : Bool := (t.find? k.text).isSome

omit [Instant τ] in
theorem Table.has_erase {t : Table τ} {key : String} {k : Key} (hne : k.text ≠ key) :
    (t.erase key).has k = t.has k := by
  unfold has erase
  rw [find?_filter]
  cases t.find? k.text <;> simp [hne]

namespace Transaction

omit [Instant τ] in
theorem keysWhere_nil (t : Table τ) :
    keysWhere t (fun key _ => ([] : List String).contains key) = [] := by
  simp [keysWhere, Table.select]

omit [Instant τ] in
theorem removeWhere_nil (t : Table τ) :
    removeWhere t (fun key _ => ([] : List String).contains key) = t := by
  refine Table.eq_of_find? fun key => ?_
  unfold removeWhere
  rw [Table.find?_filter]
  cases t.find? key <;> simp

omit [Instant τ] in
/-- A key and others are removed as if one after the other. -/
theorem removeWhere_erase (t : Table τ) (key : String) (keys : List String) :
    removeWhere (t.erase key) (fun k _ => keys.contains k) =
      removeWhere t fun k _ => (key :: keys).contains k := by
  refine Table.eq_of_find? fun k => ?_
  unfold removeWhere Table.erase
  rw [Table.find?_filter, Table.find?_filter, Table.find?_filter]
  cases t.find? k with
  | none => rfl
  | some row => by_cases hk : k = key <;> simp [hk, Option.filter]

omit [Instant τ] in
/-- The keys that are removed at once are those of which there is a row. -/
theorem keysWhere_perm {t : Table τ} {ks : List Key} (nodup : (ks.map (·.text)).Nodup) :
    (keysWhere t fun key _ => (ks.map (·.text)).contains key).Perm
      ((ks.filter t.has).map (·.text)) := by
  have hnodup : (keysWhere t fun key _ => (ks.map (·.text)).contains key).Nodup :=
    t.nodup_select _
  refine (List.perm_ext_iff_of_nodup hnodup (nodup.sublist (List.filter_sublist.map _))).2 ?_
  intro key
  rw [mem_keysWhere, List.mem_map]
  constructor
  · rintro ⟨row, hfound, asked⟩
    obtain ⟨k, mem, rfl⟩ := List.mem_map.1 (List.contains_iff_mem.1 asked)
    exact ⟨k, List.mem_filter.2 ⟨mem, by rw [Table.has, hfound]; rfl⟩, rfl⟩
  · rintro ⟨k, mem, rfl⟩
    obtain ⟨hk, hhas⟩ := List.mem_filter.1 mem
    obtain ⟨row, hfound⟩ := Option.isSome_iff_exists.1 hhas
    exact ⟨row, hfound, List.contains_iff_mem.2 (List.mem_map_of_mem hk)⟩

end Transaction

/-! ## What is counted and told -/

variable {c : Config τ} {now : τ} {ls : List ListenerId} {d d' : Desk τ}
  {r : Except Failure Answer} {rs : List (Except Failure Answer)}

theorem Does.counted {counter : Statistics.Counter} {n : Int} {es : List Event}
    {told : List (Mark τ)} (announced : Announced es told) (marks : ∀ m ∈ told, m.IsOf now ls)
    (h : Does (fun d d' => d' = d)
      ([.noted (.record counter n), .noted .forgetSize] ++ told) d d') :
    d'.seen = (d.table, d.statistics.record counter n, d.heard ++ heardOf ls es) := by
  obtain ⟨d₁, rfl, d₂, rfl, htold⟩ := h
  rw [htold.announced (fun _ _ h => h) announced,
    hearings_announced announced fun ls' mem => marks _ mem]
  rfl

/-- Calls that leave the desk as it is leave it one after another. -/
theorem SettledInTurn.same {calls : List Call} (all : SettledInTurn c now ls calls d d' rs)
    (each : ∀ call ∈ calls, ∀ d d' r, Settled c call now ls d d' r → d' = d) : d' = d := by
  induction all with
  | nil => rfl
  | @cons call calls d d₁ d' r rs first rest ih =>
    obtain rfl := each call List.mem_cons_self d d₁ r first
    exact ih fun call mem => each call (List.mem_cons_of_mem _ mem)

namespace Settled

/-- A refusal for the arguments leaves the desk as it is. -/
theorem same_of_vetted {α : Type} {x : Except Failure α} {f : Failure} {t : Trail τ}
    {rest : α → Prop} (hx : x = .error f) (vetted : Call.Vetted x t r rest)
    (does : Does (fun d d' => d' = d) t.marks d d') : d' = d := by
  subst hx
  obtain ⟨rfl, -⟩ := vetted
  exact does

/-! ## Entries that are put -/

/-- Rows are written, counted and announced, or the table refuses them. -/
def Took (ls : List ListenerId) (rows : List (String × Row τ)) (es : List Event)
    (d d' : Desk τ) : Prop :=
  match Transaction.writeRows d.table rows with
  | .ok t => d'.seen = (t, d.statistics.record .puts rows.length, d.heard ++ heardOf ls es)
  | .error _ => d' = d

theorem Took.same {key : String} {row : Row τ} {rows : List (String × Row τ)} {es : List Event}
    (h : Took ls ((key, row) :: rows) es d d') {f : Failure}
    (refuses : Transaction.constrained row = .error f) : d' = d := by
  unfold Took Transaction.writeRows at h
  rw [refuses] at h
  exact h

theorem took_of_does {rows : List (String × Row τ)} {es : List Event} {told : List (Mark τ)}
    {n : Nat} (hn : n = rows.length) (announced : Announced es told)
    (marks : ∀ m ∈ told, m.IsOf now ls)
    (h : Does (fun d d' => d' = d) (.committed (.write rows) () ::
      ([.noted (.record .puts n), .noted .forgetSize] ++ told)) d d') : Took ls rows es d d' := by
  obtain ⟨d₁, ⟨t, hcommit, rfl⟩, hrest⟩ := h
  obtain ⟨b, hb, rfl, -⟩ := Transaction.commit_ok hcommit
  unfold Took
  simp only [Transaction.firstOn] at hb
  split at hb
  · cases hb
  · next t hwrite =>
    obtain rfl := Except.ok.inj hb
    rw [hwrite]
    subst hn
    exact hrest.counted announced marks

theorem took_of_refused {rows : List (String × Row τ)} {es : List Event} {g : Failure}
    (refuses : (Transaction.write rows).commit d.table = .error g) (same : d' = d) :
    Took ls rows es d d' := by
  unfold Took
  cases hwrite : Transaction.writeRows d.table rows with
  | error f => exact same
  | ok t =>
    rw [Transaction.commit_eq] at refuses
    simp only [Transaction.firstOn, hwrite] at refuses
    cases refuses

theorem put {key value ttl policy : Value} {w : Written}
    (given : Arguments.written c "put" key value ttl policy = .ok w)
    (settled : Settled c (.put key value ttl policy) now ls d d' r) :
    Took ls [(w.key.text, w.row now)] [.put w.key value] d d' := by
  cases settled with
  | accounts account marks does =>
    obtain ⟨n, told, announced, hmarks, -⟩ := Call.Vetted.rest account given
    rw [hmarks] at marks does
    obtain rfl : n = now := marks (.read n) (by simp)
    obtain ⟨d₀, hread, hrest⟩ := does
    obtain rfl : d₀ = d := hread
    exact took_of_does rfl announced (fun m mem => marks m (List.mem_append_right _ mem)) hrest
  | refused made read refuses same =>
    cases made with
    | @put _ _ _ _ _ w' n given' hread =>
      obtain rfl := Except.ok.inj (given.symm.trans given')
      obtain rfl := read n hread
      exact took_of_refused refuses same

theorem putAll {entries ttl policy : Value} {w : WrittenMany} (any : entries.isTruthy = true)
    (given : Arguments.writtenMany c entries ttl policy = .ok w)
    (settled : Settled c (.putAll entries ttl policy) now ls d d' r) :
    Took ls (w.rows now) (w.entries.map fun e => .put e.key e.value) d d' := by
  cases settled with
  | accounts account marks does =>
    have hrest := Call.Vetted.rest account given
    rw [if_pos any] at hrest
    obtain ⟨n, told, announced, hmarks, -⟩ := hrest
    rw [hmarks] at marks does
    obtain rfl : n = now := marks (.read n) (by simp)
    obtain ⟨d₀, hread, hrest⟩ := does
    obtain rfl : d₀ = d := hread
    refine took_of_does ?_ announced (fun m mem => marks m (List.mem_append_right _ mem)) hrest
    exact (List.length_map ..).symm
  | refused made read refuses same =>
    cases made with
    | @putAll _ _ _ _ w' n given' hread =>
      obtain rfl := Except.ok.inj (given.symm.trans given')
      obtain rfl := read n hread
      exact took_of_refused refuses same

theorem put_same {key value ttl policy : Value} {f : Failure}
    (refused : Arguments.written c "put" key value ttl policy = .error f)
    (settled : Settled c (.put key value ttl policy) now ls d d' r) : d' = d := by
  cases settled with
  | accounts account marks does => exact same_of_vetted refused account does
  | refused made read refuses same => exact same

theorem putAll_same {entries ttl policy : Value}
    (refused : ∀ w, Arguments.writtenMany c entries ttl policy = .ok w → entries.isTruthy = false)
    (settled : Settled c (.putAll entries ttl policy) now ls d d' r) : d' = d := by
  cases settled with
  | accounts account marks does =>
    rcases Call.Vetted.cases account with ⟨f, -, rfl, -⟩ | ⟨w, hw, hrest⟩
    · exact does
    · rw [if_neg (by simp [refused w hw])] at hrest
      rw [hrest.1] at does
      exact does
  | refused made read refuses same => exact same

/-- Whether a table keeps a row that is written depends on its lifetime alone. -/
theorem constrained_rowOf (ttl : Option Int) (policy : Policy) (now : τ) :
    (∃ f, ∀ p, Transaction.constrained (Operation.rowOf p ttl policy now) = .error f) ∨
      ∀ p, ∃ row, Transaction.constrained (Operation.rowOf p ttl policy now) = .ok row := by
  by_cases hfits : (!(ttl.map Instant.ofSeconds : Option τ).all Instant.fits) = true
  · exact .inl ⟨_, fun p => if_pos hfits⟩
  · by_cases hunknown : Instant.isUnknown now = true
    · exact .inl ⟨_, fun p => (if_neg hfits).trans (if_pos hunknown)⟩
    · exact .inr fun p => ⟨_, (if_neg hfits).trans (if_neg hunknown)⟩

/-- Entries that are put one after another are written, counted and announced in that order. -/
theorem puts_seen {pairs : List (Value × Value)} {batch : List Arguments.Entry} {ttl policy : Value}
    {n : Option Int} {o : Policy}
    (valid : List.Forall₂ (fun pair e => pair.2 = e.value ∧
      Arguments.key pair.1 "put_all" = .ok e.key ∧
      Arguments.payload c.allowNull e.key e.value "put_all" = .ok e.payload) pairs batch)
    (hn : Arguments.ttlOr c.defaultTtl ttl "put_all" = .ok n)
    (ho : Arguments.policy policy "put_all" = .ok o)
    (keeps : ∀ p, ∃ row, Transaction.constrained (Operation.rowOf p n o now) = .ok row)
    (all : SettledInTurn c now ls (pairs.map fun p => .put p.1 p.2 ttl policy) d d' rs) :
    ∃ t, Transaction.writeRows d.table ((⟨batch, n, o⟩ : WrittenMany).rows now) = .ok t ∧
      d'.seen = (t, d.statistics.record .puts batch.length,
        d.heard ++ heardOf ls (batch.map fun e => .put e.key e.value)) := by
  induction valid generalizing d rs with
  | nil =>
    cases all
    refine ⟨_, rfl, ?_⟩
    simp [Desk.seen, Statistics.record]
  | @cons pair e pairs batch accepted _ ih =>
    obtain ⟨hvalue, hkey, hpayload⟩ := accepted
    cases all with
    | @cons _ _ _ d₁ _ _ rs first rest =>
      have given : Arguments.written c "put" pair.1 pair.2 ttl policy =
          .ok ⟨e.key, n, o, e.payload⟩ :=
        Arguments.written_of (Arguments.key_accepted hkey _) (Arguments.ttlOr_accepted hn _ _)
          (Arguments.policy_accepted ho _ _)
          (hvalue ▸ Arguments.payload_accepted hpayload _)
      obtain ⟨row, hrow⟩ := keeps e.payload
      have hfirst := first.put given
      have hwrite : Transaction.writeRows d.table
          [(e.key.text, (⟨e.key, n, o, e.payload⟩ : Written).row now)] =
            .ok (d.table.insert e.key.text row) := by
        unfold Transaction.writeRows Written.row
        rw [hrow]
        rfl
      rw [Took, hwrite, hvalue] at hfirst
      obtain ⟨htable, hstatistics, hheard⟩ : d₁.table = d.table.insert e.key.text row ∧
          d₁.statistics = d.statistics.record .puts 1 ∧
          d₁.heard = d.heard ++ heardOf ls [.put e.key e.value] := by
        simpa [Desk.seen] using hfirst
      obtain ⟨t, ht, hseen⟩ := ih rest
      refine ⟨t, ?_, ?_⟩
      · show Transaction.writeRows d.table ((e.key.text, _) :: _) = _
        unfold Transaction.writeRows
        rw [hrow]
        dsimp only
        rw [← htable]
        exact ht
      · rw [hseen, hstatistics, hheard, List.map_cons, heardOf_cons, heardOf_cons, heardOf_nil,
          List.length_cons]
        simp [Statistics.record]
        omega

/-- A batch of entries leaves what the entries leave one after another. -/
theorem putAll_seen {pairs : List (Value × Value)} {batch : List Arguments.Entry}
    (valid : Arguments.entriesOf c.allowNull "put_all" pairs = .ok batch) {ttl policy : Value}
    {d₁ d₂ : Desk τ} (settled : Settled c (.putAll (.dict pairs) ttl policy) now ls d d₁ r)
    (all : SettledInTurn c now ls (pairs.map fun p => .put p.1 p.2 ttl policy) d d₂ rs) :
    d₁.seen = d₂.seen := by
  have hsame (h₁ : d₁ = d) (h₂ : d₂ = d) : d₁.seen = d₂.seen := by rw [h₁, h₂]
  by_cases hargs : ∃ n o, Arguments.ttlOr c.defaultTtl ttl "put_all" = .ok n ∧
      Arguments.policy policy "put_all" = .ok o
  case neg =>
    -- What the batch refuses of its lifetime or policy, each entry refuses too.
    refine hsame (settled.putAll_same fun w hw => ?_) (all.same fun call mem d d' r first => ?_)
    · unfold Arguments.writtenMany at hw
      obtain ⟨n, hn, hw⟩ := Arguments.bind_ok hw
      obtain ⟨o, ho, hw⟩ := Arguments.bind_ok hw
      exact absurd ⟨n, o, hn, ho⟩ hargs
    · obtain ⟨pair, -, rfl⟩ := List.mem_map.1 mem
      cases hw : Arguments.written c "put" pair.1 pair.2 ttl policy with
      | error f => exact first.put_same hw
      | ok w =>
        obtain ⟨-, hn, ho, -⟩ := Arguments.written_ok hw
        exact absurd ⟨_, _, Arguments.ttlOr_accepted hn _ _, Arguments.policy_accepted ho _ _⟩ hargs
  case pos =>
    obtain ⟨n, o, hn, ho⟩ := hargs
    have given := Arguments.writtenMany_of hn ho valid
    have hvalid := Arguments.entriesOf_forall₂ valid
    cases pairs with
    | nil =>
      cases all
      exact hsame (settled.putAll_same fun _ _ => rfl) rfl
    | cons pair rest =>
      have htook := settled.putAll rfl given
      rcases constrained_rowOf n o now with ⟨f, refuses⟩ | keeps
      · -- The table keeps none of the rows, neither alone nor together.
        refine hsame ?_ (all.same fun call mem d d' r first => ?_)
        · cases hvalid with
          | cons accepted _ => exact htook.same (refuses _)
        · obtain ⟨pair, -, rfl⟩ := List.mem_map.1 mem
          cases hw : Arguments.written c "put" pair.1 pair.2 ttl policy with
          | error f => exact first.put_same hw
          | ok w =>
            obtain ⟨-, hn', ho', -⟩ := Arguments.written_ok hw
            have httl : w.ttl = n :=
              Except.ok.inj ((Arguments.ttlOr_accepted hn' "put_all" none).symm.trans hn)
            have hpolicy : w.policy = o :=
              Except.ok.inj ((Arguments.policy_accepted ho' "put_all" none).symm.trans ho)
            refine (first.put hw).same (f := f) ?_
            rw [Written.row, httl, hpolicy]
            exact refuses _
      · obtain ⟨t, ht, hseen⟩ := puts_seen hvalid hn ho keeps all
        rw [Took, ht] at htook
        rw [htook, hseen]
        simp [WrittenMany.rows]

/-! ## Keys that are removed -/

theorem evict {key : Value} {k : Key} (given : Arguments.key key "evict" = .ok k)
    (settled : Settled c (.evict key) now ls d d' r) :
    r = .ok (.bool (d.table.has k)) ∧
      d'.seen = (d.table.erase k.text,
        d.statistics.record .evictions (if d.table.has k then 1 else 0),
        d.heard ++ heardOf ls (if d.table.has k then [.evict k] else [])) := by
  cases settled with
  | accounts account marks does =>
    rcases Call.Vetted.rest account given with ⟨hmarks, rfl⟩ | ⟨told, announced, hmarks, rfl⟩
    · rw [hmarks] at does
      obtain ⟨d₁, ⟨t, hcommit, rfl⟩, hrest⟩ := does
      obtain rfl : d' = { d with table := t } := hrest
      obtain ⟨hhas, rfl⟩ := Prod.mk.inj (Except.ok.inj hcommit)
      replace hhas : d.table.has k = false := hhas
      rw [hhas]
      exact ⟨rfl, by simp [Desk.seen, Statistics.record]⟩
    · rw [hmarks] at does marks
      obtain ⟨d₁, ⟨t, hcommit, rfl⟩, hrest⟩ := does
      obtain ⟨hhas, rfl⟩ := Prod.mk.inj (Except.ok.inj hcommit)
      replace hhas : d.table.has k = true := hhas
      rw [hhas]
      refine ⟨rfl, ?_⟩
      exact Does.counted announced (fun m mem => marks m (List.mem_append_right _ mem)) hrest
  | refused made read refuses same => cases made with | evict => cases refuses

/-- Keys that are removed one after another are gone, counted and announced in that order. -/
theorem evicts_seen {ks : List Key}
    (accepted : ∀ k ∈ ks, Arguments.key k.toValue "evict" = .ok k)
    (nodup : (ks.map (·.text)).Nodup)
    (all : SettledInTurn c now ls (ks.map fun k => .evict k.toValue) d d' rs) :
    rs = ks.map (fun k => .ok (.bool (d.table.has k))) ∧
      d'.seen = (Transaction.removeWhere d.table fun key _ => (ks.map (·.text)).contains key,
        d.statistics.record .evictions (ks.filter d.table.has).length,
        d.heard ++ heardOf ls ((ks.filter d.table.has).map .evict)) := by
  induction ks generalizing d rs with
  | nil =>
    cases all
    refine ⟨rfl, ?_⟩
    rw [List.map_nil, Transaction.removeWhere_nil]
    simp [Desk.seen, Statistics.record]
  | cons k rest ih =>
    obtain ⟨hk, hrest⟩ := List.nodup_cons.1 (List.map_cons ▸ nodup)
    cases all with
    | @cons _ _ _ d₁ _ r rs first more =>
      obtain ⟨rfl, hseen⟩ := first.evict (accepted k List.mem_cons_self)
      obtain ⟨htable, hstatistics, hheard⟩ : d₁.table = d.table.erase k.text ∧
          d₁.statistics = d.statistics.record .evictions (if d.table.has k then 1 else 0) ∧
          d₁.heard = d.heard ++ heardOf ls (if d.table.has k then [.evict k] else []) := by
        simpa [Desk.seen] using hseen
      have hhas : ∀ k' ∈ rest, d₁.table.has k' = d.table.has k' := fun k' mem => by
        rw [htable]
        exact Table.has_erase fun heq => hk (heq ▸ List.mem_map_of_mem mem)
      obtain ⟨rfl, hseen'⟩ := ih (fun k' mem => accepted k' (List.mem_cons_of_mem _ mem)) hrest more
      refine ⟨?_, ?_⟩
      · rw [List.map_cons, List.map_congr_left fun k' mem => by rw [hhas k' mem]]
      · rw [hseen', List.filter_congr hhas, hstatistics, hheard, htable,
          Transaction.removeWhere_erase, List.filter_cons]
        cases d.table.has k with
        | true => simp [Statistics.record, heardOf_cons]; omega
        | false => simp [Statistics.record]

/-- Keys that are removed at once are gone, counted and announced in the order of the table. -/
theorem evictAll {keys : Value} {ks : List Key} (given : Arguments.keys keys "evict_all" = .ok ks)
    (settled : Settled c (.evictAll keys) now ls d d' r) {gone : List String}
    (hgone : gone = Transaction.keysWhere d.table fun key _ => (ks.map (·.text)).contains key) :
    r = .ok (.count gone.length) ∧
      d'.seen = (Transaction.removeWhere d.table fun key _ => (ks.map (·.text)).contains key,
        d.statistics.record .evictions gone.length,
        d.heard ++ heardOf ls (gone.map fun key => .evict (.plain key))) := by
  cases settled with
  | accounts account marks does =>
    have hrest := Call.Vetted.rest account given
    split at hrest
    · next hnone =>
      obtain rfl := List.isEmpty_iff.1 hnone
      obtain ⟨hmarks, rfl⟩ := hrest
      rw [hmarks] at does
      obtain rfl : d' = d := does
      obtain rfl : gone = [] := hgone.trans (Transaction.keysWhere_nil _)
      refine ⟨rfl, ?_⟩
      rw [List.map_nil, Transaction.removeWhere_nil]
      simp [Desk.seen, Statistics.record]
    · obtain ⟨removed, told, hremoved, hmarks, rfl⟩ := hrest
      rw [hmarks] at does marks
      obtain ⟨d₁, ⟨t, hcommit, rfl⟩, htold⟩ := does
      obtain ⟨hkeys, rfl⟩ := Prod.mk.inj (Except.ok.inj hcommit)
      obtain rfl : gone = removed := hgone.trans hkeys
      refine ⟨rfl, ?_⟩
      cases hremoved with
      | none =>
        obtain rfl := htold
        simp [Desk.seen, Statistics.record]
      | some any announced =>
        exact Does.counted announced (fun m mem => marks m (by simp [mem])) htold
  | refused made read refuses same => cases made with | evictAll => cases refuses

end Settled

end ExpiringStore
