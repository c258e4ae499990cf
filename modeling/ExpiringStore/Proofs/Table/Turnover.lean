import ExpiringStore.Proofs.Table.Commit

/-!
# Turnover

What a commit puts into a table and what it takes out, whatever the instants are.  A row that is
touched or renewed keeps its payload, so that payloads come and go only with rows that are written
and rows that are removed.  The rows that are lost in a commit are those that its statement takes,
and the commit answers which or how many they are.

    payload? t' k   =   puts a k r, otherwise payload? t k unless a takes it     (payload?_commit)
    lost t t'       =   the keys of the rows that a takes                            (lost_commit)
-/

namespace ExpiringStore

variable {τ : Type}

namespace Table

def payload? (t : Table τ) (key : String) : Option Cell := (t.find? key).map (·.payload)

/-- The keys of the rows that are gone, in order. -/
def lost (t t' : Table τ) : List String := t.keys.filter fun key => (t'.find? key).isNone

theorem payload?_eq_none {t : Table τ} {key : String} :
    t.payload? key = none ↔ t.find? key = none :=
  Option.map_eq_none_iff

theorem nodup_keys (t : Table τ) : t.keys.Nodup :=
  List.pairwise_map.2 (t.sorted.imp fun {a b} (h : a.1 < b.1) heq => String.lt_irrefl _ (heq ▸ h))

theorem mem_lost {t t' : Table τ} {key : String} :
    key ∈ t.lost t' ↔ (t.find? key).isSome = true ∧ t'.find? key = none := by
  unfold lost
  rw [List.mem_filter, Option.isNone_iff_eq_none]
  refine and_congr_left fun _ => ⟨fun mem => ?_, fun found => ?_⟩
  · obtain ⟨⟨k, row⟩, hrow, rfl⟩ := List.mem_map.1 mem
    rw [(mem_rows_iff t k row).1 hrow]
    rfl
  · obtain ⟨row, hrow⟩ := Option.isSome_iff_exists.1 found
    exact List.mem_map.2 ⟨(key, row), (mem_rows_iff t key row).2 hrow, rfl⟩

theorem nodup_select (t : Table τ) (condition : String → Row τ → Bool) :
    ((t.select condition).map (·.1)).Nodup :=
  t.nodup_keys.sublist (List.filter_sublist.map _)

end Table

namespace Transaction

variable [Instant τ]

/-- The payload that a committed transaction has put under a key, if it has put one there. -/
def puts (key : String) : (a : Transaction τ) → a.Reply → Option Cell
  | .write rows, _ => (lastRow key rows).map (·.payload)
  | .writeIfAbsent k row _, .inserted => if key = k then some row.payload else none
  | _, _ => none

/-- Does a transaction remove the row of a key? -/
def takes (key : String) (row : Row τ) : Transaction τ → Bool
  | .remove k => k == key
  | .removeMany keys => keys.contains key
  | .removeMatching pattern => Like.selects pattern key
  | .removeEvery => true
  | .removeExpiredKey k now => key == k && (Condition.expired row now).holds
  | .removeExpired now => (Condition.expired row now).holds
  | _ => false

def isRemoval : Transaction τ → Bool
  | .remove _ | .removeMany _ | .removeMatching _ | .removeEvery | .removeExpiredKey _ _
  | .removeExpired _ => true
  | _ => false

/-- What is put under a key is not taken from it. -/
theorem takes_of_puts {a : Transaction τ} {r : a.Reply} {key : String} {p : Cell}
    (h : a.puts key r = some p) (row : Row τ) : a.takes key row = false := by
  cases a with
  | write | writeIfAbsent => rfl
  | _ => cases h

omit [Instant τ] in
theorem mem_keysWhere {t : Table τ} {condition : String → Row τ → Bool} {key : String} :
    key ∈ keysWhere t condition ↔ ∃ row, t.find? key = some row ∧ condition key row = true := by
  constructor
  · intro mem
    obtain ⟨⟨k, row⟩, hrow, rfl⟩ := List.mem_map.1 mem
    obtain ⟨hmem, hcondition⟩ := List.mem_filter.1 hrow
    exact ⟨row, (Table.mem_rows_iff t k row).1 hmem, hcondition⟩
  · rintro ⟨row, hfound, hcondition⟩
    have hmem := (Table.mem_rows_iff t key row).2 hfound
    exact List.mem_map.2 ⟨(key, row), List.mem_filter.2 ⟨hmem, hcondition⟩, rfl⟩

omit [Instant τ] in
/-- Rows are selected by their key alone: there is one, or none. -/
theorem keysWhere_key (t : Table τ) (key : String) :
    keysWhere t (fun k _ => key == k) = if (t.find? key).isSome then [key] else [] := by
  have hnodup : (keysWhere t fun k _ => key == k).Nodup := t.nodup_select _
  have hmem (k : String) : k ∈ keysWhere t (fun k _ => key == k) ↔
      k = key ∧ (t.find? key).isSome = true := by
    rw [mem_keysWhere, Option.isSome_iff_exists]
    constructor
    · rintro ⟨row, hfound, hk⟩
      obtain rfl := beq_iff_eq.1 hk
      exact ⟨rfl, row, hfound⟩
    · rintro ⟨rfl, row, hfound⟩
      exact ⟨row, hfound, beq_self_eq_true k⟩
  cases hsome : (t.find? key).isSome with
  | true =>
    refine List.perm_singleton.1
      ((List.perm_ext_iff_of_nodup hnodup (List.nodup_singleton key)).2 ?_)
    intro k
    rw [hmem, hsome, List.mem_singleton]
    exact and_iff_left rfl
  | false =>
    refine List.eq_nil_iff_forall_not_mem.2 fun k mem => ?_
    cases hsome.symm.trans ((hmem k).1 mem).2

variable {t t' : Table τ}

/-! ## Payloads -/

theorem payload_of_constrained {r r' : Row τ} (h : constrained r = .ok r') :
    r'.payload = r.payload := by
  unfold constrained at h
  split at h
  · cases h
  · split at h
    · cases h
    · obtain rfl := Except.ok.inj h
      rfl

omit [Instant τ] in
theorem payload?_insert (t : Table τ) (k : String) (row : Row τ) (key : String) :
    (t.insert k row).payload? key = if key = k then some row.payload else t.payload? key := by
  unfold Table.payload?
  rw [Table.find?_insert]
  split <;> rfl

theorem payload?_writeRows {rows : List (String × Row τ)} (h : writeRows t rows = .ok t')
    (key : String) :
    t'.payload? key = ((lastRow key rows).map (·.payload)).or (t.payload? key) := by
  induction rows generalizing t with
  | nil =>
    obtain rfl := Except.ok.inj h
    rfl
  | cons p rest ih =>
    obtain ⟨k, row⟩ := p
    unfold writeRows at h
    split at h
    · cases h
    · next row' hrow =>
      rw [ih h, payload?_insert, payload_of_constrained hrow, lastRow]
      by_cases hk : k = key
      · subst hk
        cases lastRow k rest <;> simp
      · rw [if_neg (Ne.symm hk), if_neg hk, Option.or_none]

/-- An insertion that takes place puts the row there as the columns keep it. -/
theorem insertUnlessLive_inserted {k : String} {row : Row τ} {now : τ}
    (h : insertUnlessLive t k row now = .ok (true, t')) :
    ∃ kept, constrained row = .ok kept ∧ t' = t.insert k kept := by
  unfold insertUnlessLive at h
  split at h
  · cases h
  · next kept hkept =>
    refine ⟨kept, hkept, ?_⟩
    split at h
    · exact (Prod.mk.inj (Except.ok.inj h)).2.symm
    · split at h
      · exact (Prod.mk.inj (Except.ok.inj h)).2.symm
      · cases h

theorem payload?_insertUnlessLive {k : String} {row : Row τ} {now : τ}
    (h : insertUnlessLive t k row now = .ok (true, t')) (key : String) :
    t'.payload? key = if key = k then some row.payload else t.payload? key := by
  obtain ⟨kept, hkept, rfl⟩ := insertUnlessLive_inserted h
  rw [payload?_insert, payload_of_constrained hkept]

theorem payload?_extend {k : String} {ttl : Int} {policy : Policy} {now : τ} {b : Begun τ Bool}
    (h : firstOn t (.extend k ttl policy now) = .ok b) (key : String) :
    b.table.payload? key = t.payload? key := by
  simp only [firstOn] at h
  split at h
  · cases h
  · split at h
    · obtain rfl := Except.ok.inj h
      rfl
    · next row hfound =>
      split at h
      · obtain rfl := Except.ok.inj h
        rfl
      · split at h
        · cases h
        · next row' hrow =>
          obtain rfl := Except.ok.inj h
          show (t.insert k row').payload? key = _
          rw [payload?_insert, payload_of_constrained hrow]
          split
          · next hk =>
            rw [hk]
            unfold Table.payload?
            rw [hfound]
            rfl
          · rfl

/-- A removal leaves the rows that it does not take as they are. -/
theorem find?_removal {a : Transaction τ} {r : a.Reply} (removal : a.isRemoval = true)
    (h : commit t a = .ok (r, t')) (key : String) :
    t'.find? key = (t.find? key).filter fun row => !a.takes key row := by
  obtain ⟨b, hb, rfl, -⟩ := commit_ok h
  cases a with
  | remove k =>
    obtain rfl := Except.ok.inj hb
    show (t.erase k).find? key = _
    unfold Table.erase
    rw [Table.find?_filter]
    simp only [takes, bne, BEq.comm]
  | removeMany =>
    obtain rfl := Except.ok.inj hb
    exact Table.find?_filter ..
  | removeExpiredKey | removeExpired =>
    obtain rfl := Except.ok.inj hb
    exact Table.find?_filter t _ key
  | removeMatching pattern =>
    simp only [firstOn] at hb
    split at hb
    · cases hb
    · obtain rfl := Except.ok.inj hb
      exact Table.find?_filter ..
  | removeEvery =>
    obtain rfl := Except.ok.inj hb
    cases t.find? key <;> rfl
  | _ => cases removal

theorem liveRow_ne_inserted (t : Table τ) (key : String) (now : τ) :
    liveRow t key now ≠ .ok .inserted := by
  unfold liveRow
  split
  · exact nofun
  · next row _ =>
    split
    · cases readable row <;> exact nofun
    · exact nofun

theorem payload?_commit {a : Transaction τ} {r : a.Reply} (h : commit t a = .ok (r, t'))
    (key : String) : t'.payload? key =
      (a.puts key r).or (((t.find? key).filter fun row => !a.takes key row).map (·.payload)) := by
  have hkept : ((t.find? key).filter fun _ => !false).map (·.payload) = t.payload? key := by
    cases hfound : t.find? key <;> simp [Table.payload?, hfound]
  obtain ⟨b, hb, rfl, hanswer⟩ := commit_ok h
  cases a with
  | probe | fetch | fetchMany | isLive | liveKeys | countLive =>
    obtain ⟨_, -, rfl⟩ := reading_ok hb
    exact hkept.symm
  | write rows =>
    simp only [firstOn] at hb
    split at hb
    · cases hb
    · next t₁ hwrite =>
      obtain rfl := Except.ok.inj hb
      rw [payload?_writeRows hwrite, ← hkept]
      rfl
  | writeIfAbsent k row now =>
    simp only [firstOn] at hb
    split at hb
    · cases hb
    · next t₁ hinsert =>
      obtain rfl := Except.ok.inj hb
      obtain rfl : Insertion.inserted = r := Except.ok.inj hanswer
      show t₁.payload? key = (if key = k then some row.payload else none).or _
      rw [payload?_insertUnlessLive hinsert, ← hkept]
      split <;> rfl
    · next t₁ hkeeps =>
      obtain rfl := Except.ok.inj hb
      obtain rfl := eq_of_insertUnlessLive hkeeps
      have hlive : liveRow t₁ k now = .ok r := hanswer
      have hputs : (writeIfAbsent k row now).puts key r = none := by
        cases r with
        | inserted => exact absurd hlive (liveRow_ne_inserted t₁ k now)
        | present | neither => rfl
      rw [hputs, Option.none_or]
      exact hkept.symm
  | touch k now =>
    obtain rfl := Except.ok.inj hb
    show (t.map _).payload? key = _
    refine Eq.trans ?_ hkept.symm
    unfold Table.payload?
    rw [Table.find?_map]
    cases t.find? key with
    | none => rfl
    | some row =>
      simp only [Option.map_some]
      split <;> rfl
  | extend => exact (payload?_extend hb key).trans hkept.symm
  | remove | removeExpiredKey | removeMany | removeMatching | removeEvery | removeExpired =>
    exact congrArg _ (find?_removal rfl h key)

theorem payload?_of_puts {a : Transaction τ} {r : a.Reply} (h : commit t a = .ok (r, t'))
    {key : String} {p : Cell} (hputs : a.puts key r = some p) : t'.payload? key = some p := by
  rw [payload?_commit h, hputs, Option.some_or]

/-- Where nothing is put and nothing taken, the payload stays. -/
theorem payload?_of_spared {a : Transaction τ} {r : a.Reply} (h : commit t a = .ok (r, t'))
    {key : String} (hputs : a.puts key r = none)
    (hspares : ∀ row, t.find? key = some row → a.takes key row = false) :
    t'.payload? key = t.payload? key := by
  rw [payload?_commit h, hputs, Option.none_or]
  unfold Table.payload?
  cases hfound : t.find? key with
  | none => rfl
  | some row => rw [Option.filter_some_pos (by simp [hspares row hfound])]

/-! ## Rows that are lost -/

/-- The rows that are gone after a commit are those that its statement takes. -/
theorem lost_commit {a : Transaction τ} {r : a.Reply} (h : commit t a = .ok (r, t')) :
    t.lost t' = keysWhere t fun key row => a.takes key row := by
  unfold Table.lost keysWhere Table.keys Table.select
  rw [List.filter_map]
  refine congrArg _ (List.filter_congr ?_)
  rintro ⟨key, row⟩ mem
  have hfound := (Table.mem_rows_iff t key row).1 mem
  have hpayload := payload?_commit h key
  rw [hfound] at hpayload
  show (t'.find? key).isNone = a.takes key row
  cases htakes : a.takes key row with
  | true =>
    have hputs : a.puts key r = none := by
      cases hputs : a.puts key r with
      | none => rfl
      | some p => cases htakes.symm.trans (takes_of_puts hputs row)
    rw [hputs] at hpayload
    rw [Option.isNone_iff_eq_none, ← Table.payload?_eq_none, hpayload]
    simp [htakes]
  | false =>
    rw [← Bool.not_eq_true, Option.isNone_iff_eq_none, ← Table.payload?_eq_none, hpayload]
    simp [htakes]

/-- A row is lost in a commit that takes it. -/
theorem mem_lost_commit {a : Transaction τ} {r : a.Reply} (h : commit t a = .ok (r, t'))
    {key : String} : key ∈ t.lost t' ↔ ∃ row, t.find? key = some row ∧ a.takes key row = true := by
  rw [lost_commit h, mem_keysWhere]

/-- The payload of a key stays if nothing is put there and no row is lost there. -/
theorem payload?_of_not_lost {a : Transaction τ} {r : a.Reply} (h : commit t a = .ok (r, t'))
    {key : String} (hputs : a.puts key r = none) (hkept : key ∉ t.lost t') :
    t'.payload? key = t.payload? key := by
  refine payload?_of_spared h hputs fun row hfound => ?_
  exact eq_false_of_ne_true fun htakes => hkept ((mem_lost_commit h).2 ⟨row, hfound, htakes⟩)

/-- The keys that a removal on request answers to have removed. -/
def evicted : (a : Transaction τ) → a.Reply → List String
  | .remove key, b => if b then [key] else []
  | .removeMany _, keys => keys
  | .removeMatching _, keys => keys
  | _, _ => []

/-- Does a transaction answer which keys it has removed on request? -/
def evicts : Transaction τ → Bool
  | .remove _ | .removeMany _ | .removeMatching _ => true
  | _ => false

/-- What a removal on request answers is what is lost. -/
theorem evicted_commit {a : Transaction τ} {r : a.Reply} (evicting : a.evicts = true)
    (h : commit t a = .ok (r, t')) : a.evicted r = t.lost t' := by
  have hlost := lost_commit h
  obtain ⟨b, hb, rfl, hanswer⟩ := commit_ok h
  cases a with
  | remove key =>
    obtain rfl := Except.ok.inj hb
    obtain rfl : (t.find? key).isSome = r := Except.ok.inj hanswer
    exact (keysWhere_key t key).symm.trans hlost.symm
  | removeMany keys =>
    obtain rfl := Except.ok.inj hb
    exact (Except.ok.inj hanswer).symm.trans hlost.symm
  | removeMatching pattern =>
    simp only [firstOn] at hb
    split at hb
    · cases hb
    · obtain rfl := Except.ok.inj hb
      exact (Except.ok.inj hanswer).symm.trans hlost.symm
  | _ => cases evicting

/-- A table that is emptied loses as many rows as are answered. -/
theorem removeEvery_commit {n : Nat} (h : commit t .removeEvery = .ok (n, t')) :
    n = (t.lost t').length ∧ t' = .empty := by
  have hlost := lost_commit h
  obtain ⟨b, hb, rfl, hanswer⟩ := commit_ok h
  obtain rfl := Except.ok.inj hb
  refine ⟨?_, rfl⟩
  rw [hlost]
  obtain rfl := Except.ok.inj hanswer
  simp [keysWhere, Table.select, takes, Table.size]

end Transaction

end ExpiringStore
