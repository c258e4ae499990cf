import Mathlib.Algebra.BigOperators.Group.List.Basic

/-!
# Lists in which one entry changes

The parties to a system are kept in a list.  One of them goes on, or another one comes; and of what
all have done, each has done a part, in order.

    (l.set i x)[j]? = some y    →   y is x, at i, or what was at j          (getElem?_set_cases)
    (l ++ [x])[i]? = some y     →   y is x, at the end, or what was at i    (getElem?_append_cases)
    i has done xs ++ d :: ys    →   all have done … ++ (i, d) :: …          (exists_split)
-/

namespace ExpiringStore

variable {α : Type}

/-! ## Entries -/

theorem getElem?_set_cases {l : List α} {i j : Nat} {x y : α}
    (h : (l.set i x)[j]? = some y) : (j = i ∧ y = x) ∨ (j ≠ i ∧ l[j]? = some y) := by
  by_cases hj : i = j
  · subst hj
    rw [List.getElem?_set_self'] at h
    cases hl : l[i]? with
    | none => rw [hl] at h; cases h
    | some z =>
      rw [hl] at h
      exact .inl ⟨rfl, (Option.some.inj h).symm⟩
  · rw [List.getElem?_set_ne hj] at h
    exact .inr ⟨Ne.symm hj, h⟩

theorem getElem?_append_cases {l : List α} {i : Nat} {x y : α}
    (h : (l ++ [x])[i]? = some y) : l[i]? = some y ∨ (i = l.length ∧ y = x) := by
  rcases Nat.lt_trichotomy i l.length with hi | rfl | hi
  · exact .inl (by rwa [List.getElem?_append_left hi] at h)
  · exact .inr ⟨rfl, by simpa [eq_comm] using h⟩
  · rw [List.getElem?_eq_none (by simp; omega)] at h
    cases h

theorem getElem?_of_initial {l l' : List α} (h : l <+: l') {i : Nat} {x : α}
    (hx : l[i]? = some x) : l'[i]? = some x := by
  obtain ⟨hi, rfl⟩ := List.getElem?_eq_some_iff.1 hx
  exact List.prefix_iff_getElem?.1 h i hi

/-! ## Sums -/

/-- A party that goes on adds to a sum what it adds itself. -/
theorem sum_map_set {β : Type} [AddCommMonoid β] (f : α → β) {l : List α} {i : Nat} {v u : α}
    (atI : l[i]? = some v) {d : β} (hd : f u = f v + d) :
    ((l.set i u).map f).sum = (l.map f).sum + d := by
  induction l generalizing i with
  | nil => cases atI
  | cons w rest ih =>
    cases i with
    | zero =>
      obtain rfl := Option.some.inj atI
      rw [List.set_cons_zero, List.map_cons, List.sum_cons, List.map_cons, List.sum_cons, hd,
        add_right_comm]
    | succ i =>
      rw [List.set_cons_succ, List.map_cons, List.sum_cons, List.map_cons, List.sum_cons,
        ih (by simpa using atI), add_assoc]

/-! ## What many have done -/

/-- What one of many has done in order, all of them have done in that order, and more in between. -/
theorem exists_split {l : List (Nat × α)} {i : Nat} {xs ys : List α} {d : α}
    (h : (l.filter (·.1 == i)).map (·.2) = xs ++ d :: ys) :
    ∃ before after, l = before ++ (i, d) :: after ∧
      (before.filter (·.1 == i)).map (·.2) = xs ∧ (after.filter (·.1 == i)).map (·.2) = ys := by
  obtain ⟨l₁, l₂, hl, hxs, hl₂⟩ := List.map_eq_append_iff.1 h
  obtain ⟨⟨j, d'⟩, l₃, rfl, rfl, hys⟩ := List.map_eq_cons_iff.1 hl₂
  obtain ⟨before, l₄, rfl, hbefore, hl₄⟩ := List.filter_eq_append_iff.1 hl
  obtain ⟨skipped, after, rfl, hskipped, hj, hafter⟩ := List.filter_eq_cons_iff.1 hl₄
  obtain rfl : j = i := by simpa using hj
  have hnone : skipped.filter (·.1 == j) = [] := by
    rw [List.filter_eq_nil_iff]
    exact hskipped
  refine ⟨before ++ skipped, after, (List.append_assoc ..).symm, ?_, ?_⟩
  · rw [List.filter_append, hnone, List.append_nil, hbefore, hxs]
  · rw [hafter, hys]

/-- The last that one of many has done comes after all else that it has done. -/
theorem mem_after_of_last {before after : List (Nat × α)} {i : Nat} {xs : List α}
   {d last : α} (h : ((before ++ (i, d) :: after).filter (·.1 == i)).map (·.2) = xs ++ [last])
    (other : d ≠ last) : (i, last) ∈ after := by
  rw [List.filter_append, List.filter_cons_of_pos (by simp), List.map_append, List.map_cons] at h
  rcases List.eq_nil_or_concat (after.filter (·.1 == i)) with hnone | ⟨init, ⟨j, y⟩, hlast⟩
  · rw [hnone] at h
    obtain ⟨-, hd⟩ := List.append_inj' h rfl
    exact absurd (List.singleton_inj.1 hd) other
  · rw [hlast, List.concat_eq_append, List.map_append, ← List.cons_append,
      ← List.append_assoc] at h
    obtain ⟨-, hy⟩ := List.append_inj' h rfl
    obtain rfl : y = last := List.singleton_inj.1 hy
    have hmem : (j, y) ∈ after.filter (·.1 == i) := by simp [hlast]
    obtain ⟨hafter, hj⟩ := List.mem_filter.1 hmem
    obtain rfl : j = i := by simpa using hj
    exact hafter

/-- Of those that are of a kind, one is the last. -/
theorem exists_last {l : List α} {kind : α → Bool} (h : ∃ x ∈ l, kind x = true) :
    ∃ before x after, l = before ++ x :: after ∧ kind x = true ∧ ∀ y ∈ after, kind y = false := by
  induction l with
  | nil =>
    obtain ⟨x, mem, -⟩ := h
    cases mem
  | cons a l ih =>
    by_cases hl : ∃ x ∈ l, kind x = true
    · obtain ⟨before, x, after, rfl, hx, hafter⟩ := ih hl
      exact ⟨a :: before, x, after, rfl, hx, hafter⟩
    · obtain ⟨x, mem, hx⟩ := h
      rcases List.mem_cons.1 mem with rfl | mem
      · refine ⟨[], x, l, rfl, hx, fun y hy => ?_⟩
        exact eq_false_of_ne_true fun hy' => hl ⟨y, hy, hy'⟩
      · exact absurd ⟨x, mem, hx⟩ hl

end ExpiringStore
