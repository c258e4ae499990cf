import ExpiringStore.Proofs.Call.Contract

/-!
# Live values

What a batch read makes of the rows that it has fetched: rows that have expired are passed over, and
the others are decoded.

    liveValues now rows   =   liveValues now (the live ones of rows)         (liveValues_filter)
-/

namespace ExpiringStore.Call

variable {τ : Type} [Instant τ]

/-- What is decoded of some rows is found under the keys of those that are live, unless the payload
of one that is live cannot be decoded. -/
theorem liveValues_cases (target : Option Target) (now : τ) (rows : List (String × Row τ)) :
    (∃ found, liveValues target now rows = .ok found ∧ ∀ k,
      (found.lookup k = none ∧ ∀ row, (k, row) ∈ rows → row.isExpired now = true) ∨
      ∃ row v, (k, row) ∈ rows ∧ row.isExpired now = false ∧ found.lookup k = some v ∧
        Payload.decode row.payload.value target (some (.plain k)) = .ok v) ∨
    ∃ k row f, (k, row) ∈ rows ∧ row.isExpired now = false ∧
      Payload.decode row.payload.value target (some (.plain k)) = .error f ∧
      liveValues target now rows = .error f := by
  induction rows with
  | nil => exact .inl ⟨[], rfl, fun k => .inl ⟨rfl, fun row mem => nomatch mem⟩⟩
  | cons p rest ih =>
    obtain ⟨k, row⟩ := p
    unfold liveValues
    cases hd : row.isExpired now with
    | true =>
      rw [if_pos rfl]
      rcases ih with ⟨found, hfound, hcases⟩ | ⟨k', row', f, mem, hlive, hdecode, hfailed⟩
      · refine .inl ⟨found, hfound, fun k' => ?_⟩
        rcases hcases k' with ⟨hnone, hall⟩ | ⟨row', v, mem, hlive, hlookup, hdecode⟩
        · refine .inl ⟨hnone, fun row' mem => ?_⟩
          rcases List.mem_cons.1 mem with heq | mem
          · obtain ⟨-, rfl⟩ := Prod.mk.inj heq
            exact hd
          · exact hall row' mem
        · exact .inr ⟨row', v, List.mem_cons_of_mem _ mem, hlive, hlookup, hdecode⟩
      · exact .inr ⟨k', row', f, List.mem_cons_of_mem _ mem, hlive, hdecode, hfailed⟩
    | false =>
      rw [if_neg (by simp)]
      cases hv : Payload.decode row.payload.value target (some (.plain k)) with
      | error f => exact .inr ⟨k, row, f, List.mem_cons_self, hd, hv, rfl⟩
      | ok v =>
        rcases ih with ⟨found, hfound, hcases⟩ | ⟨k', row', f, mem, hlive, hdecode, hfailed⟩
        · refine .inl ⟨(k, v) :: found, by rw [hfound]; rfl, fun k' => ?_⟩
          by_cases hk : k' = k
          · subst hk
            exact .inr ⟨row, v, List.mem_cons_self, hd, List.lookup_cons_self, hv⟩
          · have hskip : ((k, v) :: found).lookup k' = found.lookup k' := by
              rw [List.lookup_cons, beq_false_of_ne hk]
            rw [hskip]
            rcases hcases k' with ⟨hnone, hall⟩ | ⟨row', v', mem, hlive, hlookup, hdecode⟩
            · refine .inl ⟨hnone, fun row' mem => ?_⟩
              rcases List.mem_cons.1 mem with heq | mem
              · exact absurd (Prod.mk.inj heq).1 hk
              · exact hall row' mem
            · exact .inr ⟨row', v', List.mem_cons_of_mem _ mem, hlive, hlookup, hdecode⟩
        · refine .inr ⟨k', row', f, List.mem_cons_of_mem _ mem, hlive, hdecode, ?_⟩
          rw [hfailed]
          rfl

/-- Of keys that are looked up by their texts, those are found that have one. -/
theorem map_fst_filterMap_lookup (ks : List Key) (found : List (String × Value)) :
    (ks.filterMap fun k => (found.lookup k.text).map (k, ·)).map (·.1) =
      ks.filter fun k => (found.lookup k.text).isSome := by
  induction ks with
  | nil => rfl
  | cons k rest ih =>
    cases hk : found.lookup k.text with
    | none => simpa [hk] using ih
    | some v => simpa [hk] using ih

theorem map_fst_liveValues {target : Option Target} {now : τ} {rows : List (String × Row τ)}
    {found : List (String × Value)} (h : liveValues target now rows = .ok found) :
    found.map (·.1) = (rows.filter fun p => !p.2.isExpired now).map (·.1) := by
  induction rows generalizing found with
  | nil =>
    obtain rfl := Except.ok.inj h
    rfl
  | cons p rest ih =>
    obtain ⟨k, row⟩ := p
    unfold liveValues at h
    cases hd : row.isExpired now with
    | true =>
      rw [if_pos hd] at h
      rw [List.filter_cons_of_neg (by simp [hd])]
      exact ih h
    | false =>
      rw [if_neg (by simp [hd])] at h
      rw [List.filter_cons_of_pos (by simp [hd])]
      cases hv : Payload.decode row.payload.value target (some (.plain k)) with
      | error f => rw [hv] at h; cases h
      | ok v =>
        rw [hv] at h
        cases hrest : liveValues target now rest with
        | error f => rw [hrest] at h; cases h
        | ok found' =>
          rw [hrest] at h
          obtain rfl := Except.ok.inj h
          rw [List.map_cons, List.map_cons, ih hrest]

theorem isSome_lookup (found : List (String × Value)) (key : String) :
    (found.lookup key).isSome = true ↔ key ∈ found.map (·.1) := by
  induction found with
  | nil => simp
  | cons p rest ih =>
    obtain ⟨k, v⟩ := p
    rw [List.lookup_cons, List.map_cons, List.mem_cons]
    by_cases hk : key = k
    · simp [hk]
    · rw [beq_false_of_ne hk, ← ih]
      simp [hk]

/-- Of keys with different texts as many are found as there are values found, if these are values of
the keys. -/
theorem length_found {ks : List Key} (nodup : (ks.map (·.text)).Nodup)
    {found : List (String × Value)} (nodup' : (found.map (·.1)).Nodup)
    (asked : ∀ k ∈ found.map (·.1), k ∈ ks.map (·.text)) :
    (ks.filter fun k => (found.lookup k.text).isSome).length = found.length := by
  have hperm : ((ks.filter fun k => (found.lookup k.text).isSome).map (·.text)).Perm
      (found.map (·.1)) := by
    refine (List.perm_ext_iff_of_nodup (nodup.sublist (List.filter_sublist.map _)) nodup').2 ?_
    intro key
    rw [List.mem_map]
    constructor
    · rintro ⟨k, mem, rfl⟩
      exact (isSome_lookup found k.text).1 (List.mem_filter.1 mem).2
    · intro mem
      obtain ⟨k, hk, rfl⟩ := List.mem_map.1 (asked key mem)
      exact ⟨k, List.mem_filter.2 ⟨hk, (isSome_lookup found k.text).2 mem⟩, rfl⟩
  have hlength := hperm.length_eq
  rwa [List.length_map, List.length_map] at hlength

/-- Of the keys that were asked for, as many are found as values are decoded. -/
theorem length_found_liveValues {target : Option Target} {now : τ} {ks : List Key}
    (nodup : (ks.map (·.text)).Nodup) {rows : List (String × Row τ)}
    (nodup' : (rows.map (·.1)).Nodup) (asked : ∀ p ∈ rows, p.1 ∈ ks.map (·.text))
    {values : List (String × Value)} (decoded : liveValues target now rows = .ok values) :
    (ks.filter fun k => (values.lookup k.text).isSome).length = values.length := by
  have hkeys := map_fst_liveValues decoded
  refine length_found nodup ?_ fun key mem => ?_
  · rw [hkeys]
    exact nodup'.sublist (List.filter_sublist.map _)
  · rw [hkeys] at mem
    obtain ⟨p, hp, rfl⟩ := List.mem_map.1 mem
    exact asked p (List.mem_filter.1 hp).1

/-- Rows that have expired are as good as none. -/
theorem liveValues_filter (target : Option Target) (now : τ) (rows : List (String × Row τ)) :
    liveValues target now (rows.filter fun p => !p.2.isExpired now) =
      liveValues target now rows := by
  induction rows with
  | nil => rfl
  | cons p rest ih =>
    obtain ⟨k, row⟩ := p
    cases hd : row.isExpired now with
    | true =>
      have hskip : liveValues target now ((k, row) :: rest) = liveValues target now rest := by
        conv => lhs; unfold liveValues
        rw [hd, if_pos rfl]
      rw [hskip, List.filter_cons_of_neg (by simp [hd]), ih]
    | false =>
      rw [List.filter_cons_of_pos (by simp [hd])]
      unfold liveValues
      rw [hd, ih]

end ExpiringStore.Call
