import ExpiringStore.Codec.Target

/-!
# Sets of whole numbers

A set of whole numbers lists each of them once, by size.  So the items of a set make up the same
set.

    setOf (ns.map int)   =   set (ms.map int),    ms increasing                  (setOf_ints)
-/

namespace ExpiringStore.Value

theorem same_int (a b : Int) : same (.int a) (.int b) = (a == b) := by
  have hsame : same (.int a) (.int b) = (Number.int a).same (.int b) := by
    unfold same
    rfl
  rw [hsame, Number.same, Number.compare?, Bool.eq_iff_iff]
  simp

theorem listedBefore_int (a b : Int) : listedBefore (.int a) (.int b) = decide (a ≤ b) := by
  show (Number.int a).le (.int b) = _
  rcases Int.lt_trichotomy a b with h | rfl | h
  · simp [Number.le, Number.compare?, Int.compare_eq_lt.2 h, Int.le_of_lt h]
  · simp [Number.le, Number.compare?]
  · simp [Number.le, Number.compare?, Int.compare_eq_gt.2 h, Int.not_le.2 h]

theorem distinct_ints_of_nodup {ns : List Int} (nodup : ns.Nodup) :
    distinct (ns.map .int) = ns.map .int := by
  have hfold : ∀ seen : List Int, (seen ++ ns).Nodup →
      (ns.map Value.int).foldl (fun seen v => if seen.any (same · v) then seen else seen ++ [v])
        (seen.map .int) = (seen ++ ns).map .int := by
    clear nodup
    induction ns with
    | nil => intro seen _; simp
    | cons n rest ih =>
      intro seen nodup
      have hnew : n ∉ seen := fun mem =>
        (List.nodup_append.1 nodup).2.2 n mem n List.mem_cons_self rfl
      have hany : (seen.map Value.int).any (same · (.int n)) = false := by
        rw [List.any_map, List.any_eq_false]
        intro m mem
        rw [Function.comp_apply, same_int, beq_iff_eq]
        rintro rfl
        exact hnew mem
      rw [List.map_cons, List.foldl_cons, hany, if_neg Bool.false_ne_true, ← List.singleton_append,
        ← List.append_assoc]
      have := ih (seen ++ [n]) (by simpa using nodup)
      simpa using this
  exact hfold [] nodup

/-- What is kept of some numbers are numbers that differ. -/
theorem distinct_ints (ns : List Int) :
    ∃ ms : List Int, distinct (ns.map .int) = ms.map .int ∧ ms.Nodup := by
  have hfold : ∀ seen : List Int, seen.Nodup → ∃ ms : List Int,
      (ns.map Value.int).foldl (fun seen v => if seen.any (same · v) then seen else seen ++ [v])
        (seen.map .int) = ms.map .int ∧ ms.Nodup := by
    induction ns with
    | nil => exact fun seen nodup => ⟨seen, rfl, nodup⟩
    | cons n rest ih =>
      intro seen nodup
      rw [List.map_cons, List.foldl_cons]
      split
      · exact ih seen nodup
      · next hnew =>
        have hn : n ∉ seen := by
          intro mem
          refine hnew (List.any_eq_true.2 ⟨.int n, List.mem_map_of_mem mem, ?_⟩)
          rw [same_int]
          exact beq_self_eq_true n
        obtain ⟨ms, hms, hnodup⟩ := ih (seen ++ [n])
          (List.nodup_append.2 ⟨nodup, by simp, by
            rintro a ha b hb rfl
            exact hn (List.mem_singleton.1 hb ▸ ha)⟩)
        exact ⟨ms, by simpa using hms, hnodup⟩
  exact hfold [] List.nodup_nil

theorem mergeSort_ints (ns : List Int) : (ns.map Value.int).mergeSort listedBefore =
    (ns.mergeSort fun a b => decide (a ≤ b)).map .int :=
  (List.map_mergeSort fun a _ b _ => (listedBefore_int a b).symm).symm

/-- The items of a set of whole numbers make up the same set. -/
theorem setOf_ints (ns : List Int) : ∃ ms : List Int,
    setOf (ns.map .int) = .set (ms.map .int) ∧ setOf (ms.map .int) = .set (ms.map .int) := by
  obtain ⟨ms, hms, nodup⟩ := distinct_ints ns
  have hsorted : (ms.mergeSort fun a b => decide (a ≤ b)).Pairwise fun a b => decide (a ≤ b) :=
    List.pairwise_mergeSort (fun a b c => by simpa using Int.le_trans)
      (fun a b => by simpa using Int.le_total a b) ms
  have hnodup : (ms.mergeSort fun a b => decide (a ≤ b)).Nodup :=
    (List.mergeSort_perm ms _).nodup_iff.2 nodup
  refine ⟨ms.mergeSort fun a b => decide (a ≤ b), ?_, ?_⟩
  · rw [setOf, hms, mergeSort_ints]
  · rw [setOf, distinct_ints_of_nodup hnodup, mergeSort_ints, List.mergeSort_of_pairwise hsorted]

end ExpiringStore.Value
