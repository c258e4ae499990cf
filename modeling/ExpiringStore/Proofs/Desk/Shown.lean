import ExpiringStore.Proofs.Desk.ShownWrites

/-!
# What is seen at a station

    at an obliging station with a readable table, every call shows what is live          (shows)
-/

namespace ExpiringStore

variable {τ σ : Type} [OrderedInstant τ]

namespace Call

variable {c : Config τ} {now : τ} {t : Trail τ} {d d' : Desk τ} {r : Except Failure Answer}

theorem Shown.of_unfit {call : Call} {a : Transaction τ} {f : Failure} {x : Except Failure Answer}
    (hacts : call.acts c now (d.table.live now) = some a)
    (hkept : call.onLive c now (d.table.live now) = kept a x) (hnever : a.isStorable = false)
    (hf : f = .integerTooLarge) (hd : d' = d) : Shown c call now d d' (.error f) := by
  have hunkept : ¬ a.isStorable = true := by simp [hnever]
  have hanswer : call.onLive c now (d.table.live now) = .error .integerTooLarge := by
    rw [hkept, kept, if_neg hunkept]
  refine .of_idle hd ?_ (tally_of_error hanswer) fun _ => by rw [hanswer, hf]
  rw [hacts, Option.filter_some, if_neg hunkept]

/-- A call that the storage cannot carry out leaves everything as it is. -/
theorem shown_refused [Delay τ] {call : Call} {deeds : List (Deed τ)} {a : Transaction τ}
    {f g : Failure} {table : Table τ} (hmade : call.Makes c deeds a) (hread : table.IsReadable)
    (hfailed : a.commit table = .error g) (reported : c.Reports g f) (hd : d' = d) :
    Shown c call now d d' (.error f) := by
  have hunstorable := Transaction.unstorable_of_commit hread hfailed
  have hunfit (plain : a.isPatterned = false) : f = .integerTooLarge := by
    obtain rfl := Except.error.inj
      (hfailed.symm.trans (Transaction.commit_unstorable hmade.isLegible plain hunstorable))
    cases reported
    rfl
  -- Whether a lifetime fits does not depend on when it begins.
  cases hmade with
  | @put _ key value ttl policy w n given read =>
    have hnever : Transaction.isStorable (.write [(w.key.text, w.row now)]) = false := hunstorable
    exact .of_unfit (by simp only [acts, given]; rfl) (by simp only [onLive, given]; rfl) hnever
      (hunfit rfl) hd
  | @putIfAbsent _ key value ttl policy w n given read =>
    have hnever : Transaction.isStorable (.writeIfAbsent w.key.text (w.row now) now) = false :=
      hunstorable
    exact .of_unfit (by simp only [acts, given]; rfl) (by simp only [onLive, given]; rfl) hnever
      (hunfit rfl) hd
  | @putAll _ entries ttl policy w n given read =>
    have hnever : Transaction.isStorable (.write (w.rows now)) = false := by
      rw [← hunstorable]
      show (w.entries.map _).all _ = (w.entries.map _).all _
      rw [List.all_map, List.all_map]
      rfl
    exact .of_unfit (by simp only [acts, given]; rfl) (by simp only [onLive, given]; rfl) hnever
      (hunfit rfl) hd
  | @refreshTtl _ key ttl policy w n given read =>
    have hnever : Transaction.isStorable (.extend w.key.text w.ttl w.policy now) = false :=
      hunstorable
    exact .of_unfit (by simp only [acts, given]; rfl) (by simp only [onLive, given]; rfl) hnever
      (hunfit rfl) hd
  | @getKeys _ pattern g n given read =>
    refine .of_idle hd rfl rfl fun about => ?_
    cases hunstorable.symm.trans (decide_eq_true (about g given))
  | getAllKeys read => cases hunstorable.symm.trans (decide_eq_true Like.short_all)
  | @evictByPattern _ pattern g given =>
    refine .of_idle hd ?_ rfl False.elim
    simp only [acts, given, Except.toOption, Option.map_some, Option.filter_some]
    rw [if_neg (by simp [hunstorable])]
  | _ => cases hunstorable

/-- A call that has its account shows what is live. -/
theorem shown_of_accounts [Delay τ] {call : Call} (possible : ∀ x ∈ t.troubles, x.IsPossible c)
    (past : call = .size → ∀ n at', d.memo.counted = some (n, at') → at' ≤ now)
    (hc : Carried now t.marks d d') (h : Accounts c call t r) : Shown c call now d d' r := by
  cases call with
  | get => exact shown_get possible hc h
  | containsKey => exact shown_containsKey hc h
  | getAll => exact shown_getAll hc h
  | getKeys => exact shown_getKeys hc h
  | getAllKeys => exact shown_getAllKeys hc h
  | getRemainingTtl => exact shown_getRemainingTtl hc h
  | getTtlPolicy => exact shown_getTtlPolicy hc h
  | size => exact shown_size (past rfl) hc h
  | put => exact shown_put hc h
  | putIfAbsent => exact shown_putIfAbsent hc h
  | putAll => exact shown_putAll hc h
  | refreshTtl => exact shown_refreshTtl hc h
  | evict => exact shown_evict hc h
  | evictAll => exact shown_evictAll hc h
  | evictByPattern => exact shown_evictByPattern hc h
  | clear => exact shown_clear hc h
  | cleanupExpired => exact shown_cleanupExpired hc h

end Call

namespace Station

variable [Delay τ] {h : Station τ σ} {c : Config τ}

theorem carried (obliging : h.Obliging c) {s : σ} (readable : (h.desk s).table.IsReadable)
    (call : Call) : Call.Carried (h.clock s) (h.trail c call s).marks (h.desk s)
      (h.desk (h.answer c call s).2) := by
  obtain ⟨orderly, hdoes, -⟩ := h.answer_cases call obliging readable
  exact ⟨orderly.readings, h.listens, h.silent, hdoes⟩

/-- A call that asks for nothing that the storage cannot do has its account. -/
theorem accounts (obliging : h.Obliging c) {s : σ} (readable : (h.desk s).table.IsReadable)
    (call : Call) (storable : call.isStorable c = true) :
    call.Accounts c (h.trail c call s) (h.answer c call s).1 := by
  obtain ⟨-, -, haccounts | ⟨f, g, deeds, a, t, -, -, hmade, hread, hfailed, -⟩⟩ :=
    h.answer_cases call obliging readable
  · exact haccounts
  · cases (hmade.isStorable storable).symm.trans (Transaction.unstorable_of_commit hread hfailed)

/-- Every call shows what is live, a count if none is kept from a later instant. -/
theorem shows (obliging : h.Obliging c) {s : σ} (readable : (h.desk s).table.IsReadable)
    (call : Call)
    (past : call = .size → ∀ n at', (h.desk s).memo.counted = some (n, at') → at' ≤ h.clock s) :
    call.Shown c (h.clock s) (h.desk s) (h.desk (h.answer c call s).2) (h.answer c call s).1 := by
  obtain ⟨orderly, -, hends⟩ := h.answer_cases call obliging readable
  rcases hends with haccounts | ⟨f, g, deeds, a, t, hf, hd, hmade, hread, hfailed, reported⟩
  · exact Call.shown_of_accounts orderly.troubles past (carried obliging readable call) haccounts
  · rw [hf]
    exact Call.shown_refused hmade hread hfailed reported hd

theorem tidy_answer (obliging : h.Obliging c) {s : σ} (tidy : (h.desk s).Tidy (h.clock s))
    (call : Call) : (h.desk (h.answer c call s).2).Tidy (h.clock s) := by
  obtain ⟨orderly, -⟩ := h.answer_cases call obliging tidy.readable
  refine ⟨orderly.readable, fun n at' counted => ?_⟩
  rcases orderly.kept n at' counted with rfl | before
  · exact le_refl _
  · exact tidy.past n at' before

end Station

end ExpiringStore
