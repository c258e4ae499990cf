import ExpiringStore.Proofs.Table.Commit

/-!
# Transactions on one row

Setting the row of a key, or removing it, leaves the rows of the other keys alone, so that rows of
different keys are set in any order.  A transaction about one key reads and sets the row of this key
and no other, so what it answers and what becomes of the row depends on this row alone.

    find? (assign t k row) k'           =   row if k' = k, otherwise find? t k'
    assign (assign t k₁ r₁) k₂ r₂       =   assign (assign t k₂ r₂) k₁ r₁          (k₁ ≠ k₂)
    commit t a  =  .ok (r, assign t k row'), r and row' depending on find? t k   (About.comesTo)
-/

namespace ExpiringStore

variable {τ : Type}

namespace Table

/-- Sets the row of a key, or removes it. -/
def assign (t : Table τ) (key : String) : Option (Row τ) → Table τ
  | none => t.erase key
  | some row => t.insert key row

theorem find?_assign (t : Table τ) (key : String) (row : Option (Row τ)) (k' : String) :
    (t.assign key row).find? k' = if k' = key then row else t.find? k' := by
  cases row with
  | some row => exact find?_insert t key k' row
  | none =>
    refine (find?_filter ..).trans ?_
    by_cases h : k' = key
    · cases t.find? k' <;> simp [h]
    · cases t.find? k' <;> simp [h]

@[simp] theorem find?_assign_self (t : Table τ) (key : String) (row : Option (Row τ)) :
    (t.assign key row).find? key = row := by
  rw [find?_assign, if_pos rfl]

theorem find?_assign_of_ne {key k' : String} (hne : k' ≠ key) (t : Table τ)
    (row : Option (Row τ)) : (t.assign key row).find? k' = t.find? k' := by
  rw [find?_assign, if_neg hne]

/-- A table in which all other rows are the same has been assigned its row. -/
theorem eq_assign {t t' : Table τ} {key : String} (h : ∀ k', k' ≠ key → t'.find? k' = t.find? k') :
    t' = t.assign key (t'.find? key) := by
  refine eq_of_find? fun k' => ?_
  rw [find?_assign]
  split
  · next hk => rw [hk]
  · next hk => exact h k' hk

@[simp] theorem assign_find? (t : Table τ) (key : String) : t.assign key (t.find? key) = t :=
  (eq_assign fun _ _ => rfl).symm

@[simp] theorem assign_assign (t : Table τ) (key : String) (row row' : Option (Row τ)) :
    (t.assign key row).assign key row' = t.assign key row' := by
  refine eq_of_find? fun k' => ?_
  simp only [find?_assign]
  split <;> rfl

theorem assign_comm {k₁ k₂ : String} (hne : k₁ ≠ k₂) (t : Table τ) (r₁ r₂ : Option (Row τ)) :
    (t.assign k₁ r₁).assign k₂ r₂ = (t.assign k₂ r₂).assign k₁ r₁ := by
  refine eq_of_find? fun k' => ?_
  simp only [find?_assign]
  split
  · next h => rw [if_neg (h ▸ hne.symm)]
  · rfl

/-! ## Table operations on one row -/

theorem erase_eq (t : Table τ) (key : String) : t.erase key = t.assign key none := rfl

theorem map_one (t : Table τ) (key : String) (change : Row τ → Row τ) :
    (t.map fun k r => if k == key then change r else r) =
      t.assign key ((t.find? key).map change) := by
  refine eq_of_find? fun k' => ?_
  rw [find?_map, find?_assign]
  by_cases h : k' = key
  · subst h
    simp
  · simp [h]

theorem filter_one (t : Table τ) (key : String) (goes : Row τ → Bool) :
    (t.filter fun k r => !(k == key && goes r)) =
      t.assign key ((t.find? key).filter fun r => !goes r) := by
  refine eq_of_find? fun k' => ?_
  rw [find?_filter, find?_assign]
  by_cases h : k' = key
  · subst h
    simp
  · cases t.find? k' <;> simp [h]

/-- Is a row selected under the key? -/
theorem select_one (t : Table τ) (key : String) (condition : Row τ → Bool) :
    ((t.select fun k r => k == key && condition r).map (·.1)).isEmpty =
      !(t.find? key).any condition := by
  rw [Bool.eq_iff_iff]
  have hselect : (∀ p ∈ t.rows, p.1 = key → condition p.2 = false) ↔
      ∀ row, t.find? key = some row → condition row = false :=
    ⟨fun h row found => h (key, row) ((mem_rows_iff t key row).2 found) rfl,
      fun h p hp hkey => h p.2 ((mem_rows_iff t key p.2).1 (hkey ▸ hp))⟩
  cases hfound : t.find? key with
  | none => simpa [select, hfound] using hselect
  | some row => simpa [select, hfound] using hselect

end Table

namespace Transaction

/-- The transactions about one key. -/
inductive About (key : String) : Transaction τ → Prop
  | fetch : About key (.fetch key)
  | isLive (now : τ) : About key (.isLive key now)
  | write (row : Row τ) : About key (.write [(key, row)])
  | writeIfAbsent (row : Row τ) (now : τ) : About key (.writeIfAbsent key row now)
  | touch (now : τ) : About key (.touch key now)
  | extend (ttl : Int) (policy : Policy) (now : τ) : About key (.extend key ttl policy now)
  | remove : About key (.remove key)
  | removeExpiredKey (now : τ) : About key (.removeExpiredKey key now)

variable [Instant τ]

/-- What becomes of the row of a key and what is answered, however the rest of the table is. -/
def ComesTo (a : Transaction τ) (key : String) (row : Option (Row τ))
    (x : Except Failure (a.Reply × Option (Row τ))) : Prop :=
  ∀ t : Table τ, t.find? key = row → commit t a = x.map fun p => (p.1, t.assign key p.2)

section
variable {a : Transaction τ} {key : String} {row : Option (Row τ)}

theorem comesTo_refused {f : Failure}
    (h : ∀ t : Table τ, t.find? key = row → firstOn t a = .error f) :
    a.ComesTo key row (.error f) := by
  intro t found
  rw [commit_eq, h t found]
  rfl

theorem comesTo_reading {x : Except Failure a.Reply}
    (h : ∀ t : Table τ, t.find? key = row → firstOn t a = reading t x) :
    a.ComesTo key row (x.map (·, row)) := by
  intro t found
  have hsame : t.assign key row = t := found ▸ t.assign_find? key
  rw [commit_eq, h t found]
  cases x with
  | error f => rfl
  | ok r => exact congrArg (fun t' => Except.ok (r, t')) hsame.symm

theorem comesTo_changing (r : a.Reply) (row' : Option (Row τ))
    (h : ∀ t : Table τ, t.find? key = row → firstOn t a = changing r (t.assign key row')) :
    a.ComesTo key row (.ok (r, row')) := by
  intro t found
  rw [commit_eq, h t found]
  rfl

end

/-- A conditional insertion is about the row of its key, also where it does not insert and reads
the row in a second statement. -/
theorem comesTo_writeIfAbsent (key : String) (new : Row τ) (now : τ) (row : Option (Row τ)) :
    ∃ x, (writeIfAbsent key new now).ComesTo key row x := by
  cases hnew : constrained new with
  | error f =>
    exact ⟨_, comesTo_refused fun t _ => by
      simp [firstOn, insertUnlessLive, hnew]
      rfl⟩
  | ok new' =>
    have inserts (h : ∀ old, row = some old → (Condition.expired old now).holds = true) :
        (writeIfAbsent key new now).ComesTo key row (.ok (.inserted, some new')) := by
      refine comesTo_changing _ _ fun t found => ?_
      simp only [firstOn, insertUnlessLive, hnew, found]
      cases row with
      | none => rfl
      | some old =>
        simp only [h old rfl, if_true]
        rfl
    cases row with
    | none => exact ⟨_, inserts fun _ h => by cases h⟩
    | some old =>
      cases hexpired : (Condition.expired old now).holds with
      | true => exact ⟨_, inserts fun _ h => Option.some.inj h ▸ hexpired⟩
      | false =>
        refine ⟨(if (Condition.live old now).holds then (readable old).map .present
          else .ok .neither).map (·, some old), fun t found => ?_⟩
        have hsame : t.assign key (some old) = t := found ▸ t.assign_find? key
        rw [commit_eq]
        simp only [firstOn, insertUnlessLive, hnew, found, hexpired]
        show (liveRow t key now).map (·, t) = _
        unfold liveRow
        rw [found]
        dsimp only
        split
        · cases readable old with
          | error f => rfl
          | ok r => exact congrArg (fun t' => Except.ok (Insertion.present r, t')) hsame.symm
        · exact congrArg (fun t' => Except.ok (Insertion.neither, t')) hsame.symm

/-- An extension sets the row of its key, or leaves it. -/
theorem comesTo_extend (key : String) (ttl : Int) (policy : Policy) (now : τ)
    (row : Option (Row τ)) : ∃ x, (extend key ttl policy now).ComesTo key row x := by
  have leaves (hfits : fitsWord ttl = true)
      (h : ∀ old, row = some old → (Condition.live old now).holds = false) :
      (extend key ttl policy now).ComesTo key row (.ok (false, row)) := by
    refine comesTo_changing _ _ fun t found => ?_
    have hsame : t.assign key row = t := found ▸ t.assign_find? key
    rw [hsame]
    simp only [firstOn, hfits, found]
    cases row with
    | none => rfl
    | some old => simp [h old rfl]
  cases hfits : fitsWord ttl with
  | false => exact ⟨_, comesTo_refused fun t _ => by
    simp [firstOn, hfits]
    rfl⟩
  | true =>
    cases row with
    | none => exact ⟨_, leaves hfits fun _ h => by cases h⟩
    | some old =>
      cases hlive : (Condition.live old now).holds with
      | false => exact ⟨_, leaves hfits fun _ h => Option.some.inj h ▸ hlive⟩
      | true =>
        cases hnew : constrained (renewed old ttl policy now) with
        | error f =>
          exact ⟨_, comesTo_refused fun t found => by
            simp [firstOn, hfits, found, hlive, hnew]
            rfl⟩
        | ok new =>
          exact ⟨_, comesTo_changing true (some new) fun t found => by
            simp [firstOn, hfits, found, hlive, hnew, Table.assign]⟩

/-- A transaction about one key depends on the row of this key, and sets it. -/
theorem About.comesTo {a : Transaction τ} {key : String} (about : a.About key)
    (row : Option (Row τ)) : ∃ x, a.ComesTo key row x := by
  cases about with
  | fetch => exact ⟨_, comesTo_reading fun t found => by rw [firstOn, found]⟩
  | isLive now => exact ⟨_, comesTo_reading fun t found => by rw [firstOn, found]⟩
  | write new =>
    cases hnew : constrained new with
    | error f =>
      exact ⟨_, comesTo_refused fun t _ => by
        simp [firstOn, writeRows, hnew]
        rfl⟩
    | ok new' =>
      exact ⟨_, comesTo_changing () (some new') fun t _ => by
        simp [firstOn, writeRows, hnew, Table.assign]⟩
  | writeIfAbsent new now => exact comesTo_writeIfAbsent key new now row
  | touch now =>
    exact ⟨_, comesTo_changing _ _ fun t found => by rw [firstOn, Table.map_one, found]⟩
  | extend ttl policy now => exact comesTo_extend key ttl policy now row
  | remove => exact ⟨_, comesTo_changing _ _ fun t found => by rw [firstOn, found, Table.erase_eq]⟩
  | removeExpiredKey now =>
    refine ⟨_, comesTo_changing (row.any fun r => (Condition.expired r now).holds)
      (row.filter fun r => !(Condition.expired r now).holds) fun t found => ?_⟩
    rw [firstOn, removing, keysWhere, removeWhere, Table.filter_one, Table.select_one, found,
      Bool.not_not]

end Transaction

end ExpiringStore
