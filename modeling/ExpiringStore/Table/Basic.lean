import ExpiringStore.Table.Condition

/-!
# The table

A table holds at most one row per key and keeps its rows in the order of their
keys, by code points.  The order is part of the type, so every operation shows
that it keeps it.

    find? (insert t k r) k = some r          find? (insert t k r) k' = find? t k'   (k' ≠ k)
-/

namespace ExpiringStore

/-- Rows by key, in the order of the keys. -/
structure Table (τ : Type) where
  rows : List (String × Row τ)
  sorted : rows.Pairwise (fun a b => a.1 < b.1)

namespace Table

variable {τ : Type}

/-- A table without rows. -/
def empty : Table τ := ⟨[], .nil⟩

instance : Inhabited (Table τ) := ⟨empty⟩

/-! ## Insertion into a sorted list -/

/-- Puts a row in its place, over the row of the same key if there is one. -/
def place (key : String) (row : Row τ) : List (String × Row τ) → List (String × Row τ)
  | [] => [(key, row)]
  | (k, r) :: rest =>
    if key < k then (key, row) :: (k, r) :: rest
    else if k < key then (k, r) :: place key row rest
    else (key, row) :: rest

theorem eq_of_not_lt {a b : String} (h : ¬ a < b) (h' : ¬ b < a) : a = b :=
  String.le_antisymm (String.not_lt.1 h') (String.not_lt.1 h)

theorem mem_place {key : String} {row : Row τ} {rows : List (String × Row τ)}
    {p : String × Row τ} (h : p ∈ place key row rows) : p = (key, row) ∨ p ∈ rows := by
  induction rows with
  | nil => simpa [place] using h
  | cons q rest ih =>
    obtain ⟨k, r⟩ := q
    unfold place at h
    split at h
    · simpa using h
    · split at h
      · rcases List.mem_cons.1 h with h | h
        · exact .inr (by simp [h])
        · rcases ih h with h | h
          · exact .inl h
          · exact .inr (List.mem_cons_of_mem _ h)
      · rcases List.mem_cons.1 h with h | h
        · exact .inl h
        · exact .inr (List.mem_cons_of_mem _ h)

theorem place_sorted (key : String) (row : Row τ) {rows : List (String × Row τ)}
    (h : rows.Pairwise (fun a b => a.1 < b.1)) :
    (place key row rows).Pairwise (fun a b => a.1 < b.1) := by
  induction rows with
  | nil => simp [place]
  | cons q rest ih =>
    obtain ⟨k, r⟩ := q
    obtain ⟨hk, hrest⟩ := List.pairwise_cons.1 h
    unfold place
    split
    · rename_i hlt
      refine List.pairwise_cons.2 ⟨fun p hp => ?_, h⟩
      rcases List.mem_cons.1 hp with rfl | hp
      · exact hlt
      · exact String.lt_trans hlt (hk p hp)
    · split
      · rename_i hgt
        refine List.pairwise_cons.2 ⟨fun p hp => ?_, ih hrest⟩
        rcases mem_place hp with rfl | hp
        · exact hgt
        · exact hk p hp
      · rename_i hlt hgt
        obtain rfl := eq_of_not_lt hlt hgt
        exact List.pairwise_cons.2 ⟨hk, hrest⟩

/-! ## Operations -/

/-- The row of a key. -/
def find? (t : Table τ) (key : String) : Option (Row τ) :=
  (t.rows.find? (·.1 == key)).map (·.2)

/-- Sets the row of a key. -/
def insert (t : Table τ) (key : String) (row : Row τ) : Table τ :=
  ⟨place key row t.rows, place_sorted key row t.sorted⟩

/-- Keeps the rows of which a condition on key and row holds. -/
def filter (t : Table τ) (keep : String → Row τ → Bool) : Table τ :=
  ⟨t.rows.filter (fun p => keep p.1 p.2), t.sorted.filter _⟩

/-- Removes the row of a key. -/
def erase (t : Table τ) (key : String) : Table τ := t.filter (fun k _ => k != key)

/-- Changes rows in place, by key and row. -/
def map (t : Table τ) (change : String → Row τ → Row τ) : Table τ :=
  ⟨t.rows.map (fun p => (p.1, change p.1 p.2)), List.pairwise_map.2 t.sorted⟩

def keys (t : Table τ) : List String := t.rows.map (·.1)

/-- The number of rows. -/
def size (t : Table τ) : Nat := t.rows.length

/-- The rows of which a condition holds, in order. -/
def select (t : Table τ) (condition : String → Row τ → Bool) : List (String × Row τ) :=
  t.rows.filter (fun p => condition p.1 p.2)

end Table

end ExpiringStore
