import ExpiringStore.Proofs.Desk.Hearing
import ExpiringStore.Proofs.Lifetime.Exact
import ExpiringStore.Proofs.Table.Live
import ExpiringStore.Proofs.Table.Turnover

/-!
# Upkeep of the counted size

A call leaves the counted size as it was only if the table counts the same as before: what it
commits changes no row, or moves a live row forward, which was live when the size was counted and
still is.  After any other change the size is forgotten, and a size that is kept has just been
counted.

    Describes d       the counted size is the number of the rows that are live at its instant
    Dated d now       nothing on the desk is dated later than now
    Heeds d d'        rows come only with another generation of the counted size
    Upkeep d d'       what is so of a desk after work at it:  d' heeds d, and if the size described
                      the table, or has been counted anew, it does now
-/

namespace ExpiringStore

variable {τ : Type}

/-! ## Stamps -/

namespace Row

def touched (row : Row τ) (now : τ) : Row τ := { row with lastAccessed := some now }

/-- A row that is touched runs from where it ran, or from the touch. -/
theorem start_touched (row : Row τ) (now : τ) :
    (row.touched now).lifetime.start = row.lifetime.start ∨
      (row.touched now).lifetime.start = now := by
  unfold touched lifetime Lifetime.start
  cases Policy.ofStored row.policy with
  | absolute => exact .inl rfl
  | sliding => exact .inr rfl

/-- A row that is written, or given a new lifetime, runs from then. -/
theorem start_stamped {row : Row τ} {now : τ} (updated : row.updatedAt = now)
    (accessed : row.lastAccessed = some now) : row.lifetime.start = now := by
  unfold lifetime Lifetime.start
  rw [updated, accessed]
  cases Policy.ofStored row.policy <;> rfl

/-- A live row that is touched was live before, and still is. -/
theorem isExpired_touched [MonotoneInstant τ] {row : Row τ} {now at' : τ}
    (started : row.lifetime.start ≤ now) (live : row.isExpired now = false) (earlier : at' ≤ now) :
    (row.touched now).isExpired at' = row.isExpired at' := by
  have hbefore : row.isExpired at' = false :=
    eq_false_of_ne_true fun dead => by cases live.symm.trans (isExpired_mono earlier dead)
  rw [hbefore]
  have hsame : (row.touched now).ttl = row.ttl := rfl
  cases hn : row.ttl with
  | none => exact isExpired_of_permanent (hsame.trans hn) at'
  | some n =>
    rw [isExpired_eq_false_iff_of_ttl hn] at live
    rw [isExpired_eq_false_iff_of_ttl (hsame.trans hn)]
    refine (earlier.trans live).trans (MonotoneInstant.plus_le_plus ?_ n)
    rcases row.start_touched now with hstart | hstart
    · exact hstart.ge
    · exact started.trans hstart.ge

end Row

namespace Table

variable [MonotoneInstant τ] {t : Table τ} {now later : τ}

/-- No lifetime in a table runs from later than now. -/
def Stamped (t : Table τ) (now : τ) : Prop :=
  ∀ key row, t.find? key = some row → row.lifetime.start ≤ now

theorem Stamped.mono (h : t.Stamped now) (hle : now ≤ later) : t.Stamped later :=
  fun key row found => (h key row found).trans hle

theorem stamped_empty (now : τ) : (empty : Table τ).Stamped now := nofun

end Table

namespace Transaction

/-- Whatever a transaction stamps, it stamps no later than now. -/
def StampsBy [MonotoneInstant τ] (now : τ) : Transaction τ → Prop
  | .write rows => ∀ p ∈ rows, p.2.lifetime.start ≤ now
  | .writeIfAbsent _ row _ => row.lifetime.start ≤ now
  | .touch _ n | .extend _ _ _ n => n ≤ now
  | _ => True

theorem mem_of_lastRow {key : String} {rows : List (String × Row τ)} {row : Row τ}
    (h : lastRow key rows = some row) : ∃ p ∈ rows, p.2 = row := by
  rw [lastRow_eq] at h
  obtain ⟨p, hp, rfl⟩ := Option.map_eq_some_iff.1 h
  exact ⟨p, List.mem_reverse.1 (List.mem_of_find?_eq_some hp), rfl⟩

section
variable [MonotoneInstant τ] {t t' : Table τ} {now : τ} {a : Transaction τ} {r : a.Reply}

theorem stamped_commit (h : commit t a = .ok (r, t')) (stamps : a.StampsBy now)
    (stamped : t.Stamped now) : t'.Stamped now := by
  intro key row found
  rw [find?_commit h] at found
  have hgives := gives_of_onRow found
  generalize hold : t.find? key = old at hgives
  cases hgives with
  | same => exact stamped key row hold
  | written old last =>
    obtain ⟨p, mem, rfl⟩ := mem_of_lastRow last
    exact stamps p mem
  | inserted absent => exact stamps
  | touched row n =>
    rcases row.start_touched n with hstart | hstart
    · exact hstart.trans_le (stamped key row hold)
    · exact hstart.trans_le stamps
  | extended ttl policy live => exact (Row.start_stamped rfl rfl).trans_le stamps

end

/-! ## Commits that leave the table as it is -/

/-- Does the answer of a transaction say that it has changed no row? -/
def spares : (a : Transaction τ) → a.Reply → Bool
  | .extend _ _ _ _, b => !b
  | .remove _, b => !b
  | .removeExpiredKey _ _, b => !b
  | .removeMany _, keys => keys.isEmpty
  | .removeMatching _, keys => keys.isEmpty
  | .removeExpired _, n => n == 0
  | a, r => a.isQuiet r

theorem spares_of_isQuiet {a : Transaction τ} {r : a.Reply} (quiet : a.isQuiet r = true) :
    a.spares r = true := by
  cases a with
  | extend | remove | removeExpiredKey | removeMany | removeMatching | removeExpired => cases quiet
  | _ => exact quiet

variable [MonotoneInstant τ] {t t' : Table τ}

section
variable {a : Transaction τ} {r : a.Reply}

/-- A removal in which no row is lost leaves the table as it is. -/
theorem eq_of_lost_nil (removal : a.isRemoval = true)
    (h : commit t a = .ok (r, t')) (nothing : t.lost t' = []) : t' = t := by
  refine Table.eq_of_find? fun key => ?_
  have hrow := find?_removal removal h key
  cases hf : t.find? key with
  | none =>
    rw [hf] at hrow
    exact hrow
  | some row =>
    have hspared : a.takes key row = false := by
      refine eq_false_of_ne_true fun takes => ?_
      have hmem := (mem_lost_commit h).2 ⟨row, hf, takes⟩
      rw [nothing] at hmem
      cases hmem
    rw [hrow, hf, Option.filter_some_pos (by rw [hspared]; rfl)]

theorem commit_spared (spared : a.spares r = true) (h : commit t a = .ok (r, t')) : t' = t := by
  cases a with
  | extend k ttl policy now =>
    obtain rfl : r = false := by simpa [spares] using spared
    have hdead := reply_extend h
    refine Table.eq_of_find? fun key => ?_
    rw [find?_commit h]
    show (t.find? key).map (fun r => if key = k ∧ r.isExpired now = false then _ else r) = _
    cases hf : t.find? key with
    | none => rfl
    | some row =>
      refine congrArg some (if_neg ?_)
      rintro ⟨rfl, live⟩
      rw [hf, Option.any_some, live] at hdead
      cases hdead
  | remove key =>
    obtain rfl : r = false := by simpa [spares] using spared
    exact eq_of_lost_nil rfl h (evicted_commit rfl h).symm
  | removeMany keys =>
    obtain rfl : r = [] := List.isEmpty_iff.1 spared
    exact eq_of_lost_nil rfl h (evicted_commit rfl h).symm
  | removeMatching pattern =>
    obtain rfl : r = [] := List.isEmpty_iff.1 spared
    exact eq_of_lost_nil rfl h (evicted_commit rfl h).symm
  | removeExpiredKey key now =>
    obtain rfl : r = false := by simpa [spares] using spared
    obtain ⟨b, hb, -, hanswer⟩ := commit_ok h
    obtain rfl := Except.ok.inj hb
    have hnothing : (!(keysWhere t _).isEmpty) = false := Except.ok.inj hanswer
    refine eq_of_lost_nil rfl h ((lost_commit h).trans ?_)
    exact List.isEmpty_iff.1 ((Bool.not_eq_false' _).mp hnothing)
  | removeExpired now =>
    obtain rfl : r = 0 := by simpa [spares] using spared
    obtain ⟨b, hb, -, hanswer⟩ := commit_ok h
    obtain rfl := Except.ok.inj hb
    refine eq_of_lost_nil rfl h ((lost_commit h).trans ?_)
    exact List.length_eq_zero_iff.1 (Except.ok.inj hanswer)
  | _ =>
    have hquiet : isQuiet _ r = true := spared
    exact commit_quiet hquiet h

end

/-! ## Touches -/

variable {now at' : τ} {key : String}

theorem eq_of_touch (h : commit t (.touch key now) = .ok ((), t')) :
    t' = t.map fun k r => if k = key then r.touched now else r := by
  refine Table.eq_of_find? fun k => ?_
  rw [find?_commit h, Table.find?_map]
  rfl

/-- A touch of a live row leaves as many rows live as were before. -/
theorem size_live_touch (h : commit t (.touch key now) = .ok ((), t')) {row : Row τ}
    (found : t.find? key = some row) (live : row.isExpired now = false) (stamped : t.Stamped now)
    (earlier : at' ≤ now) : (t'.live at').size = (t.live at').size := by
  have hsize (t : Table τ) : (t.live at').size = t.rows.countP fun p => !p.2.isExpired at' :=
    List.countP_eq_length_filter.symm
  rw [eq_of_touch h, hsize, hsize]
  show List.countP _ (t.rows.map _) = _
  rw [List.countP_map]
  refine List.countP_congr fun p mem => ?_
  obtain ⟨k, row'⟩ := p
  show (!(if k = key then row'.touched now else row').isExpired at') = true ↔ _
  split
  · next hk =>
    subst hk
    obtain rfl : row = row' :=
      Option.some.inj (found.symm.trans ((Table.mem_rows_iff t k row').1 mem))
    rw [Row.isExpired_touched (stamped k row found) live earlier]
  · rfl

end Transaction

/-! ## Desks -/

namespace Desk

variable [MonotoneInstant τ] {d d' d'' : Desk τ} {now later : τ}

/-- The counted size is the number of the rows that are live, in the table as it is, at the instant
at which it was counted. -/
def Describes (d : Desk τ) : Prop :=
  ∀ n at', d.memo.counted = some (n, at') → n = (d.table.live at').size

/-- Nothing on a desk is dated later than now. -/
structure Dated (d : Desk τ) (now : τ) : Prop where
  stamped : d.table.Stamped now
  counted (n : Nat) (at' : τ) (h : d.memo.counted = some (n, at')) : at' ≤ now

theorem Dated.mono (h : d.Dated now) (hle : now ≤ later) : d.Dated later :=
  ⟨h.stamped.mono hle, fun n at' hn => (h.counted n at' hn).trans hle⟩

theorem describes_of_forgotten (forgotten : d.memo.counted = none) : d.Describes :=
  fun n at' h => by cases forgotten.symm.trans h

/-- Rows come only with another generation of the counted size. -/
structure Heeds (d d' : Desk τ) : Prop where
  generation : d.memo.generation ≤ d'.memo.generation
  vacant : d'.memo.generation = d.memo.generation → d.table = .empty → d'.table = .empty

omit [MonotoneInstant τ] in
theorem Heeds.refl (d : Desk τ) : Heeds d d := ⟨le_rfl, fun _ h => h⟩

omit [MonotoneInstant τ] in
theorem Heeds.trans (h : Heeds d d') (h' : Heeds d' d'') : Heeds d d'' where
  generation := h.generation.trans h'.generation
  vacant heq hempty := by
    have hfirst := h.generation
    have hsecond := h'.generation
    exact h'.vacant (by omega) (h.vacant (by omega) hempty)

/-- What is so of a desk after work at it. -/
structure Upkeep (d d' : Desk τ) : Prop extends Heeds d d' where
  describes : d.Describes → d'.Describes
  /-- A size that is not the one that was kept before describes the table. -/
  renewed : d'.memo = d.memo ∨ d'.Describes

namespace Upkeep

theorem same (table : d'.table = d.table) (memo : d'.memo = d.memo) : Upkeep d d' where
  describes h := by
    unfold Describes
    rw [table, memo]
    exact h
  renewed := .inl memo
  generation := (congrArg SizeMemo.generation memo).ge
  vacant _ h := table.trans h

theorem refl (d : Desk τ) : Upkeep d d := same rfl rfl

theorem trans (h : Upkeep d d') (h' : Upkeep d' d'') : Upkeep d d'' where
  toHeeds := h.toHeeds.trans h'.toHeeds
  describes := h'.describes ∘ h.describes
  renewed := by
    rcases h'.renewed with hmemo' | hdescribes
    · rcases h.renewed with hmemo | hdescribes
      · exact .inl (hmemo'.trans hmemo)
      · exact .inr (h'.describes hdescribes)
    · exact .inr hdescribes

/-- The table counts the same as before, at every instant so far. -/
theorem counts_same (memo : d'.memo = d.memo) (dated : d.Dated now)
    (size : ∀ at', at' ≤ now → (d'.table.live at').size = (d.table.live at').size)
    (vacant : d.table = .empty → d'.table = .empty) : Upkeep d d' where
  describes h n at' counted := by
    rw [memo] at counted
    rw [size at' (dated.counted n at' counted)]
    exact h n at' counted
  renewed := .inl memo
  generation := (congrArg SizeMemo.generation memo).ge
  vacant _ := vacant

theorem forgotten (counted : d'.memo.counted = none)
    (generation : d.memo.generation < d'.memo.generation) : Upkeep d d' where
  describes _ := describes_of_forgotten counted
  renewed := .inr (describes_of_forgotten counted)
  generation := generation.le
  vacant heq := absurd heq generation.ne'

theorem counted (table : d'.table = d.table) (generation : d'.memo.generation = d.memo.generation)
    (describes : d'.Describes) : Upkeep d d' where
  describes _ := describes
  renewed := .inr describes
  generation := generation.ge
  vacant _ h := table.trans h

end Upkeep

end Desk

end ExpiringStore
