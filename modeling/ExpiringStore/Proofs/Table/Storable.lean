import ExpiringStore.Proofs.Table.Commit

/-!
# Transactions that cannot fail

A table takes no lifetime that does not fit a word, and matches no pattern that is too long.  These
are the only reasons for which a transaction fails that nothing interrupts, as long as the payloads
of the table can be read; and they still can be read after it.

    storable a   →   t is readable   →   commit t a is .ok (r, t')  and  t' is readable
    a writes what is legible but not storable   →   commit t a is .error integerTooLarge
-/

namespace ExpiringStore

variable {τ : Type}

/-- Can a table keep a row, and read its payload again? -/
def Row.isStorable [Instant τ] (r : Row τ) : Bool :=
  r.ttl.all Instant.fits && r.payload.readError?.isNone

/-- Can the payloads of all rows be read? -/
def Table.IsReadable (t : Table τ) : Prop :=
  ∀ key row, t.find? key = some row → row.payload.readError? = none

theorem Table.isReadable_empty : (Table.empty : Table τ).IsReadable := by
  intro key row h
  cases h

theorem Table.isReadable_of_rows {t : Table τ}
    (h : t.rows.all (·.2.payload.readError?.isNone) = true) : t.IsReadable := by
  intro key row found
  exact Option.isNone_iff_eq_none.1 (List.all_eq_true.1 h _ ((mem_rows_iff t key row).2 found))

namespace Transaction

variable [OrderedInstant τ] {t t' : Table τ}

/-- Is there no reason in a transaction itself for which it would fail? -/
def isStorable : Transaction τ → Bool
  | .write rows => rows.all (·.2.isStorable)
  | .writeIfAbsent _ row _ => row.isStorable
  | .extend _ ttl _ _ => fitsWord ttl
  | .liveKeys pattern _ => pattern.utf8ByteSize ≤ Like.longest
  | .removeMatching pattern => pattern.utf8ByteSize ≤ Like.longest
  | _ => true

/-- Can the payloads that a transaction writes be read again? -/
def isLegible : Transaction τ → Bool
  | .write rows => rows.all (·.2.payload.readError?.isNone)
  | .writeIfAbsent _ row _ => row.payload.readError?.isNone
  | _ => true

def isPatterned : Transaction τ → Bool
  | .liveKeys _ _ | .removeMatching _ => true
  | _ => false

theorem isLegible_of_isStorable {a : Transaction τ} (h : a.isStorable = true) :
    a.isLegible = true := by
  cases a with
  | write rows =>
    refine List.all_eq_true.2 fun p mem => ?_
    exact (Bool.and_eq_true_iff.1 (List.all_eq_true.1 h p mem)).2
  | writeIfAbsent key row now => exact (Bool.and_eq_true_iff.1 h).2
  | _ => rfl

theorem constrained_of_fits {r : Row τ} (h : r.ttl.all Instant.fits = true) :
    ∃ r', constrained r = .ok r' := by
  unfold constrained
  rw [h, if_neg (by simp), if_neg (by simp)]
  exact ⟨_, rfl⟩

omit [OrderedInstant τ] in
theorem readable_of_readError? {r : Row τ} (h : r.payload.readError? = none) :
    readable r = .ok r := by
  unfold readable
  rw [h]

omit [OrderedInstant τ] in
theorem allReadable_of_readError? {rows : List (String × Row τ)}
    (h : ∀ p ∈ rows, p.2.payload.readError? = none) : ∃ rows', allReadable rows = .ok rows' := by
  induction rows with
  | nil => exact ⟨[], rfl⟩
  | cons p rest ih =>
    obtain ⟨k, row⟩ := p
    obtain ⟨rest', hrest⟩ := ih fun q mem => h q (List.mem_cons_of_mem _ mem)
    unfold allReadable
    rw [readable_of_readError? (h (k, row) List.mem_cons_self), hrest]
    exact ⟨_, rfl⟩

theorem writeRows_of_storable {rows : List (String × Row τ)}
    (h : ∀ p ∈ rows, p.2.isStorable = true) : ∃ t', writeRows t rows = .ok t' := by
  induction rows generalizing t with
  | nil => exact ⟨t, rfl⟩
  | cons p rest ih =>
    obtain ⟨k, row⟩ := p
    have hrow := h (k, row) List.mem_cons_self
    obtain ⟨row', hrow'⟩ := constrained_of_fits (Bool.and_eq_true_iff.1 hrow).1
    unfold writeRows
    rw [hrow']
    exact ih fun q mem => h q (List.mem_cons_of_mem _ mem)

omit [OrderedInstant τ] in
theorem matchable_of_short {pattern : String} (h : pattern.utf8ByteSize ≤ Like.longest) :
    matchable t pattern = .ok () := by
  have hnone : (t.select fun k _ => Like.overtaxes pattern k) = [] := by
    unfold Table.select
    rw [List.filter_eq_nil_iff]
    intro p _
    simp [Like.overtaxes, Nat.not_lt.2 h]
  unfold matchable
  rw [hnone]
  rfl

/-- A conditional insertion either takes place or meets a row that it can read. -/
theorem writeIfAbsent_total (hread : t.IsReadable) {key : String} {row : Row τ} (now : τ)
    (hrow : row.isStorable = true) :
    ∃ r t', commit t (.writeIfAbsent key row now) = .ok (r, t') := by
  obtain ⟨row', hrow'⟩ := constrained_of_fits (Bool.and_eq_true_iff.1 hrow).1
  have hinsert : ∃ b, insertUnlessLive t key row now = .ok b := by
    unfold insertUnlessLive
    rw [hrow']
    cases t.find? key with
    | none => exact ⟨_, rfl⟩
    | some old =>
      dsimp only
      split <;> exact ⟨_, rfl⟩
  obtain ⟨⟨b, t'⟩, hinsert⟩ := hinsert
  rw [commit_eq]
  simp only [firstOn, hinsert]
  cases b with
  | true => exact ⟨_, _, rfl⟩
  | false =>
    obtain ⟨-, ht⟩ := insertUnlessLive_ok hinsert
    obtain rfl : t = t' := ht.symm
    have hlive : ∃ r, liveRow t key now = .ok r := by
      unfold liveRow
      cases hf : t.find? key with
      | none => exact ⟨_, rfl⟩
      | some old =>
        dsimp only
        split
        · rw [readable_of_readError? (hread key old hf)]
          exact ⟨_, rfl⟩
        · exact ⟨_, rfl⟩
    obtain ⟨r, hr⟩ := hlive
    refine ⟨r, t, ?_⟩
    show (liveRow t key now).map _ = _
    rw [hr]
    rfl

/-- A transaction that reads commits if what it reads can be read. -/
theorem commit_reading {a : Transaction τ} {x : Except Failure a.Reply} {r : a.Reply}
    (ha : firstOn t a = reading t x) (hx : x = .ok r) : ∃ r t', commit t a = .ok (r, t') := by
  rw [commit_eq, ha, hx]
  exact ⟨r, t, rfl⟩

/-- A transaction whose only statement changes the table commits. -/
theorem commit_changing {a : Transaction τ} {r : a.Reply} (ha : firstOn t a = changing r t') :
    ∃ r t', commit t a = .ok (r, t') := by
  rw [commit_eq, ha]
  exact ⟨r, t', rfl⟩

/-- The row of a key is fetched if its payload can be read, whatever else the table keeps. -/
theorem commit_fetch {key : String}
    (hread : ∀ row, t.find? key = some row → row.payload.readError? = none) :
    ∃ r t', commit t (.fetch key) = .ok (r, t') := by
  cases hf : t.find? key with
  | none => exact commit_reading (x := .ok none) (by simp only [firstOn, hf]) rfl
  | some row =>
    have hrow : (readable row).map some = .ok (some row) := by
      rw [readable_of_readError? (hread row hf)]
      rfl
    have hfirst : firstOn t (.fetch key) = reading t ((readable row).map some) := by
      simp only [firstOn, hf]
    exact commit_reading hfirst hrow

theorem commit_write {rows : List (String × Row τ)} (h : rows.all (·.2.isStorable) = true) :
    ∃ r t', commit t (.write rows) = .ok (r, t') := by
  obtain ⟨t', hwrite⟩ := writeRows_of_storable (t := t) (List.all_eq_true.1 h)
  have hfirst : firstOn t (.write rows) = changing () t' := by simp only [firstOn, hwrite]
  exact commit_changing hfirst

/-- A transaction that is storable does not fail on a table whose payloads can be read. -/
theorem commit_total {a : Transaction τ} (ha : a.isStorable = true) (hread : t.IsReadable) :
    ∃ r t', commit t a = .ok (r, t') := by
  cases a with
  | probe | isLive | countLive => exact commit_reading rfl rfl
  | fetch key => exact commit_fetch (hread key)
  | fetchMany keys =>
    have hrows : ∀ p ∈ t.select (fun k _ => keys.contains k), p.2.payload.readError? = none := by
      rintro ⟨k, row⟩ mem
      exact hread k row ((Table.mem_rows_iff t k row).1 (List.mem_filter.1 mem).1)
    obtain ⟨rows, hrows⟩ := allReadable_of_readError? hrows
    exact commit_reading rfl hrows
  | liveKeys pattern now =>
    have hshort : matchable t pattern = .ok () := matchable_of_short (of_decide_eq_true ha)
    have hfirst : firstOn t (.liveKeys pattern now) = reading t ((matchable t pattern).map _) := rfl
    rw [hshort] at hfirst
    exact commit_reading hfirst rfl
  | write rows => exact commit_write ha
  | writeIfAbsent key row now => exact writeIfAbsent_total hread now ha
  | extend key ttl policy now =>
    have hfits : fitsWord ttl = true := ha
    have hfirst : ∃ b t', firstOn t (.extend key ttl policy now) = changing b t' := by
      simp only [firstOn, hfits]
      rw [if_neg (by simp)]
      cases t.find? key with
      | none => exact ⟨_, _, rfl⟩
      | some row =>
        dsimp only
        split
        · exact ⟨_, _, rfl⟩
        · have hrow : (renewed row ttl policy now).ttl.all Instant.fits = true :=
            OrderedInstant.fits_ofSeconds hfits
          obtain ⟨row', hrow'⟩ := constrained_of_fits hrow
          rw [hrow']
          exact ⟨_, _, rfl⟩
    obtain ⟨b, t', hfirst⟩ := hfirst
    exact commit_changing hfirst
  | removeMatching pattern =>
    have hshort : matchable t pattern = .ok () := matchable_of_short (of_decide_eq_true ha)
    have hfirst : ∃ removed t', firstOn t (.removeMatching pattern) = changing removed t' := by
      simp only [firstOn, hshort]
      exact ⟨_, _, rfl⟩
    obtain ⟨removed, t', hfirst⟩ := hfirst
    exact commit_changing hfirst
  | touch | remove | removeExpiredKey | removeMany | removeEvery | removeExpired =>
    exact commit_changing rfl

/-- What a legible transaction leaves can be read. -/
theorem isReadable_commit {a : Transaction τ} (ha : a.isLegible = true) (hread : t.IsReadable)
    {r : a.Reply} (hdone : commit t a = .ok (r, t')) : t'.IsReadable := by
  intro key row hfound
  rw [find?_commit hdone key] at hfound
  have hgives := gives_of_onRow hfound
  generalize hold : t.find? key = old at hgives
  cases hgives with
  | same a row => exact hread key row hold
  | written old last =>
    rw [lastRow_eq] at last
    obtain ⟨p, hp, rfl⟩ := Option.map_eq_some_iff.1 last
    have hmem := List.mem_reverse.1 (List.mem_of_find?_eq_some hp)
    exact Option.isNone_iff_eq_none.1 (List.all_eq_true.1 ha p hmem)
  | inserted absent => exact Option.isNone_iff_eq_none.1 ha
  | touched row now => exact hread key row hold
  | @extended row ttl policy now live => exact hread key row hold

/-! ## Lifetimes that do not fit -/

omit [OrderedInstant τ] in
theorem constrained_of_unfit [Instant τ] {row : Row τ} (h : row.ttl.all Instant.fits = false) :
    constrained row = .error .integerTooLarge := by
  unfold constrained
  rw [h]
  rfl

/-- A legible row is not storable only because its lifetime does not fit. -/
theorem unfit_of_isStorable {row : Row τ} (legible : row.payload.readError?.isNone = true)
    (h : row.isStorable = false) : row.ttl.all Instant.fits = false := by
  unfold Row.isStorable at h
  rwa [legible, Bool.and_true] at h

theorem writeRows_unstorable {rows : List (String × Row τ)}
    (legible : rows.all (·.2.payload.readError?.isNone) = true)
    (h : rows.all (·.2.isStorable) = false) : writeRows t rows = .error .integerTooLarge := by
  induction rows generalizing t with
  | nil => cases h
  | cons p rest ih =>
    obtain ⟨key, row⟩ := p
    obtain ⟨hrow, hrest⟩ := Bool.and_eq_true_iff.1 legible
    unfold writeRows
    cases hs : row.isStorable with
    | false => rw [constrained_of_unfit (unfit_of_isStorable hrow hs)]
    | true =>
      obtain ⟨row', hrow'⟩ := constrained_of_fits (Bool.and_eq_true_iff.1 hs).1
      rw [hrow']
      refine ih hrest ?_
      rwa [List.all_cons, hs, Bool.true_and] at h

/-- Where no pattern is matched, a legible transaction that is not storable is refused. -/
theorem commit_unstorable {a : Transaction τ} (legible : a.isLegible = true)
    (plain : a.isPatterned = false) (h : a.isStorable = false) :
    commit t a = .error .integerTooLarge := by
  have hfirst : firstOn t a = .error .integerTooLarge := by
    cases a with
    | write rows => simp only [firstOn, writeRows_unstorable legible h]
    | writeIfAbsent key row now =>
      have hrow := constrained_of_unfit (unfit_of_isStorable legible h)
      simp only [firstOn, insertUnlessLive, hrow]
    | extend key ttl policy now =>
      have hfits : fitsWord ttl = false := h
      simp only [firstOn, hfits, Bool.not_false, if_true]
    | liveKeys | removeMatching => cases plain
    | _ => cases h
  rw [commit_eq, hfirst]
  rfl

/-- Where no pattern is matched, a legible transaction that commits is storable. -/
theorem storable_of_commit {a : Transaction τ} (legible : a.isLegible = true)
    (plain : a.isPatterned = false) {r : a.Reply} (h : commit t a = .ok (r, t')) :
    a.isStorable = true := by
  cases hs : a.isStorable with
  | true => rfl
  | false => cases h.symm.trans (commit_unstorable legible plain hs)

/-- A transaction that fails on a table that can be read is not storable. -/
theorem unstorable_of_commit {a : Transaction τ} (hread : t.IsReadable) {f : Failure}
    (h : commit t a = .error f) : a.isStorable = false := by
  cases hs : a.isStorable with
  | false => rfl
  | true =>
    obtain ⟨r, t', hdone⟩ := commit_total hs hread
    cases hdone.symm.trans h

end Transaction

end ExpiringStore
