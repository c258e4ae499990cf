import ExpiringStore.Table.Transaction
import Mathlib.Data.List.Sort

/-!
# Finding rows

What each operation of a table does to the row that is found under a key.  A table holds one row a
key, so these equations say all there is to say about the operation.

    find? (insert t k r) k'   =   some r if k' = k, otherwise find? t k'
    find? (filter t keep) k   =   find? t k, if keep holds of it
    find? (map t change) k    =   change k applied to find? t k
    t = t'   if   find? t k = find? t' k for every k
-/

namespace ExpiringStore.Table

variable {τ : Type}

/-! ## Rows of a sorted list -/

theorem place_find?_self (key : String) (row : Row τ) (rows : List (String × Row τ)) :
    (place key row rows).find? (·.1 == key) = some (key, row) := by
  induction rows with
  | nil => simp [place]
  | cons p rest ih =>
    obtain ⟨k, r⟩ := p
    unfold place
    split
    · simp
    · split
      · next _ hlt =>
        have hne : k ≠ key := fun e => String.lt_irrefl _ (e ▸ hlt)
        simp [hne, ih]
      · simp

theorem place_find?_of_ne {key k' : String} (hne : k' ≠ key) (row : Row τ)
    (rows : List (String × Row τ)) :
    (place key row rows).find? (·.1 == k') = rows.find? (·.1 == k') := by
  induction rows with
  | nil => simp [place, hne.symm]
  | cons p rest ih =>
    obtain ⟨k, r⟩ := p
    unfold place
    split
    · simp [hne.symm]
    · split
      · simp only [List.find?_cons, ih]
      · next h h' =>
        obtain rfl := eq_of_not_lt h h'
        simp [hne.symm]

/-- The rows of a table and the rows found in it are the same. -/
theorem mem_rows_iff (t : Table τ) (key : String) (row : Row τ) :
    (key, row) ∈ t.rows ↔ t.find? key = some row := by
  unfold find?
  obtain ⟨rows, sorted⟩ := t
  simp only
  induction rows with
  | nil => simp
  | cons p rest ih =>
    obtain ⟨k, r⟩ := p
    obtain ⟨hk, hrest⟩ := List.pairwise_cons.1 sorted
    by_cases h : k = key
    · subst h
      have hnot : (k, row) ∉ rest := fun hm => String.lt_irrefl _ (hk (k, row) hm)
      simp [hnot, eq_comm]
    · have hne : ¬ key = k := fun e => h e.symm
      simp only [List.mem_cons, Prod.mk.injEq, hne, false_and, false_or, ih hrest]
      simp [h]

/-- Tables in which the same rows are found are the same. -/
theorem eq_of_find? {t t' : Table τ} (h : ∀ key, t.find? key = t'.find? key) : t = t' := by
  have hrows : t.rows = t'.rows := by
    have : Std.Irrefl fun a b : String × Row τ => a.1 < b.1 := ⟨fun a => String.lt_irrefl a.1⟩
    have : Std.Asymm fun a b : String × Row τ => a.1 < b.1 := ⟨fun a b => String.lt_asymm⟩
    refine t.sorted.eq_of_mem_iff t'.sorted fun p => ?_
    obtain ⟨key, row⟩ := p
    rw [mem_rows_iff, mem_rows_iff, h key]
  obtain ⟨rows, sorted⟩ := t
  obtain ⟨rows', sorted'⟩ := t'
  cases hrows
  rfl

/-! ## Operations -/

@[simp] theorem find?_empty (key : String) : (empty : Table τ).find? key = none := rfl

@[simp] theorem find?_insert_self (t : Table τ) (key : String) (row : Row τ) :
    (t.insert key row).find? key = some row := by
  unfold find? insert
  rw [place_find?_self]
  rfl

theorem find?_insert_of_ne {key k' : String} (hne : k' ≠ key) (t : Table τ) (row : Row τ) :
    (t.insert key row).find? k' = t.find? k' := by
  unfold find? insert
  rw [place_find?_of_ne hne]

theorem find?_insert (t : Table τ) (key k' : String) (row : Row τ) :
    (t.insert key row).find? k' = if k' = key then some row else t.find? k' := by
  split
  · next h => rw [h, find?_insert_self]
  · next h => exact find?_insert_of_ne h t row

theorem find?_filter (t : Table τ) (keep : String → Row τ → Bool) (key : String) :
    (t.filter keep).find? key = (t.find? key).filter (keep key) := by
  apply Option.ext
  intro row
  rw [← mem_rows_iff, Option.filter_eq_some_iff, ← mem_rows_iff]
  show (key, row) ∈ t.rows.filter _ ↔ _
  rw [List.mem_filter]

theorem find?_map (t : Table τ) (change : String → Row τ → Row τ) (key : String) :
    (t.map change).find? key = (t.find? key).map (change key) := by
  apply Option.ext
  intro row
  rw [← mem_rows_iff, Option.map_eq_some_iff]
  show (key, row) ∈ t.rows.map _ ↔ _
  rw [List.mem_map]
  constructor
  · rintro ⟨⟨k, r⟩, hm, he⟩
    simp only [Prod.mk.injEq] at he
    obtain ⟨rfl, rfl⟩ := he
    exact ⟨r, (mem_rows_iff t k r).1 hm, rfl⟩
  · rintro ⟨r, hr, rfl⟩
    exact ⟨(key, r), (mem_rows_iff t key r).2 hr, rfl⟩

end ExpiringStore.Table
