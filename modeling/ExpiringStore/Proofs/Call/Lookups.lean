import ExpiringStore.Proofs.Call.Writes
import ExpiringStore.Proofs.Program.Fair

/-!
# Lookups of what was written

Where every row that is answered can be decoded, no lookup fails because of a payload, unless it
asks for values of some type; and where there are no nulls among the rows, none is found.

    get, getAll    yield no failure about a payload, and no null that is not there
    putIfAbsent    yields none but about the payload that it is given         (abides_putIfAbsent)
-/

namespace ExpiringStore

variable {τ : Type}

namespace Arguments

theorem blameless_refuse {α : Type} {cause : Complaint.Cause} {operation : String}
    {key : Option Key} (other : cause.kind ≠ .serialization) :
    Blameless (refuse cause operation key : Except Failure α) :=
  blameless_error (beq_false_of_ne other)

theorem blameless_key (v : Value) (operation : String) : Blameless (key v operation) := by
  unfold key
  split
  · exact blameless_refuse (by decide)
  · split
    · exact blameless_refuse (by decide)
    · split
      · exact blameless_refuse (by decide)
      · exact blameless_ok _

theorem blameless_keysOf (operation : String) (items : List Value) :
    Blameless (keysOf operation items) := by
  induction items with
  | nil => exact blameless_ok _
  | cons v rest ih =>
    unfold keysOf
    cases hk : key v operation with
    | error f => exact blameless_error (blameless_key v operation f hk)
    | ok k => exact blameless_map ih _

theorem blameless_keys (v : Value) (operation : String) : Blameless (keys v operation) := by
  have hdistinct (items : List Value) : Blameless ((keysOf operation items).map Key.distinct) :=
    blameless_map (blameless_keysOf operation items) _
  unfold keys
  split
  · exact hdistinct _
  · exact blameless_refuse (by decide)
  · exact blameless_refuse (by decide)
  · exact blameless_refuse (by decide)
  · split
    · exact hdistinct _
    · exact blameless_error rfl

end Arguments

namespace Operation

variable [Instant τ] [Delay τ] {nulls : Bool} {c : Config τ}

omit [Instant τ] [Delay τ] in
theorem yields_decode {row : Row τ} (h : row.Decodes nulls) (key : Option Key) :
    (ofExcept (Payload.decode row.payload.value none key) : Operation τ Value).Yields nulls
      (fun v => nulls = false → v ≠ .nullMarker) := by
  obtain ⟨v, hv, hnull⟩ := h
  rw [hv key]
  exact yields_pure hnull

theorem ofDecoded_ne_null {v : Value} (h : v ≠ .nullMarker) : Lookup.ofDecoded v ≠ .null := by
  cases v with
  | nullMarker => exact absurd rfl h
  | _ => exact fun hnull => by cases hnull

theorem yields_removeExpiredKey (key : Key) (now : τ) :
    (removeExpiredKey c key now).Yields nulls (fun _ => True) := by
  refine yields_bind (yields_bestEffort _ key ((yields_transact c _ _ _).mono fun _ _ => trivial))
    fun removed _ => ?_
  split
  · exact yields_bookkeep _
  · exact yields_pure trivial

theorem yields_touch (key : Key) (now : τ) : (touch c key now).Yields nulls (fun _ => True) :=
  yields_map _ (yields_bestEffort _ key ((yields_transact c _ _ _).mono fun _ _ => trivial))

theorem yields_get (key : Value) (refresh : Bool) :
    (get c key refresh none).Yields nulls (fun r => nulls = false → r ≠ .null) := by
  refine yields_checked (Arguments.blameless_key key _) fun key => ?_
  refine yields_bind (yields_startup c) fun _ _ => ?_
  refine yields_bind (yields_transact c _ _ _) fun row? shown => ?_
  cases row? with
  | none =>
    refine yields_bind (yields_bookkeep _) fun _ _ => yields_bind (yields_log _) fun _ _ => ?_
    exact yields_pure fun _ => nofun
  | some row =>
    have hrow : row.Decodes nulls := shown _ List.mem_cons_self
    refine yields_bind yields_readClock fun now _ => ?_
    refine yields_bind (yields_reportPolicy _ _) fun _ _ => ?_
    split
    · refine yields_bind (yields_removeExpiredKey key now) fun _ _ => ?_
      refine yields_bind (yields_bookkeep _) fun _ _ => yields_bind (yields_log _) fun _ _ => ?_
      exact yields_pure fun _ => nofun
    · have hfound : Yields nulls (fun r => nulls = false → r ≠ Lookup.null) (do
          let value ← ofExcept (Payload.decode row.payload.value none (some key))
          bookkeep (.record .hits 1)
          logLookup "get" key true
          return Lookup.ofDecoded value : Operation τ Lookup) := by
        refine yields_bind (yields_decode hrow _) fun v hv => ?_
        refine yields_bind (yields_bookkeep _) fun _ _ => yields_bind (yields_log _) fun _ _ => ?_
        exact yields_pure fun hnulls => ofDecoded_ne_null (hv hnulls)
      dsimp only
      split
      · exact yields_bind (yields_touch key now) fun _ _ => hfound
      · exact hfound

omit [Delay τ] in
/-- The values of rows that can be decoded.  The induction is on the rows. -/
theorem yields_decodeLive (now : τ) {rows : List (String × Row τ)}
    (h : ∀ p ∈ rows, p.2.Decodes nulls) : (decodeLive none now rows).Yields nulls
      (fun found => ∀ p ∈ found, nulls = false → p.2 ≠ .nullMarker) := by
  induction rows with
  | nil => exact yields_pure (List.forall_mem_nil _)
  | cons p rest ih =>
    obtain ⟨key, row⟩ := p
    obtain ⟨hrow, hrest⟩ := List.forall_mem_cons.1 h
    refine yields_bind (yields_reportPolicy _ _) fun _ _ => ?_
    split
    · exact ih hrest
    · refine yields_bind (yields_decode hrow _) fun v hv => ?_
      refine yields_bind (ih hrest) fun found hfound => ?_
      exact yields_pure (List.forall_mem_cons.2 ⟨hv, hfound⟩)

theorem yields_getAll (keys : Value) : (getAll c keys none).Yields nulls
    (fun found => ∀ p ∈ found, nulls = false → p.2 ≠ .nullMarker) := by
  refine yields_checked (Arguments.blameless_keys keys _) fun keys => ?_
  dsimp only
  split
  · exact yields_pure (List.forall_mem_nil _)
  refine yields_bind (yields_startup c) fun _ _ => ?_
  refine yields_bind (yields_transact c _ _ _) fun rows shown => ?_
  refine yields_bind yields_readClock fun now _ => ?_
  refine yields_bind (yields_decodeLive now shown) fun found hfound => ?_
  have hlast : Yields nulls (fun found => ∀ p ∈ found, nulls = false → p.2 ≠ Value.nullMarker) (do
      log ⟨.debug, "Batch get", [("requested", .int keys.length), ("found", .int found.length)]⟩
      return keys.filterMap fun k => (found.lookup k.text).map (k, ·) :
        Operation τ (List (Key × Value))) := by
    refine yields_bind (yields_log _) fun _ _ => yields_pure ?_
    intro p mem
    obtain ⟨k, -, hk⟩ := List.mem_filterMap.1 mem
    obtain ⟨v, hv, rfl⟩ := Option.map_eq_some_iff.1 hk
    obtain ⟨earlier, later, rfl, -⟩ := List.lookup_eq_some_iff.1 hv
    exact hfound (k.text, v) (List.mem_append_right _ List.mem_cons_self)
  split
  · refine yields_bind (yields_bookkeep _) fun _ _ => ?_
    split
    · exact yields_bind (yields_bookkeep _) fun _ _ => hlast
    · exact hlast
  · split
    · exact yields_bind (yields_bookkeep _) fun _ _ => hlast
    · exact hlast

/-- The induction is on the attempts at the insertion that are left. -/
theorem yields_insertIfAbsent (key : Key) (value : Value) (payload : Json) (ttl : Option Int)
    (policy : Policy) (left : Nat) :
    (insertIfAbsent c key value payload ttl policy left).Yields nulls
      (fun r => nulls = false → r ≠ .null) := by
  induction left with
  | zero => exact yields_throw rfl
  | succ left ih =>
    refine yields_bind yields_readClock fun now _ => ?_
    refine yields_bind (yields_transact c _ _ _) fun reply shown => ?_
    cases reply with
    | inserted =>
      refine yields_bind (yields_bookkeep _) fun _ _ => ?_
      refine yields_bind (yields_bookkeep _) fun _ _ => ?_
      refine yields_bind (yields_log _) fun _ _ => yields_bind (yields_announce _) fun _ _ => ?_
      exact yields_pure fun _ => nofun
    | present row =>
      refine yields_bind (yields_log _) fun _ _ => ?_
      refine yields_bind (yields_decode (shown _ List.mem_cons_self) _) fun v hv => ?_
      exact yields_pure fun hnulls => ofDecoded_ne_null (hv hnulls)
    | neither => exact yields_bind (yields_log _) fun _ _ => ih

/-- A conditional insertion fails for no payload but the one that it is given. -/
theorem abides_putIfAbsent (key value ttl policy : Value) :
    (putIfAbsent c key value ttl policy).Abides (Rule.fair nulls)
      (fun told r => told → nulls = false → r ≠ .null)
      (fun told f => told → f.isAboutPayload = true →
        Arguments.written c "put_if_absent" key value ttl policy = .error f) True := by
  unfold putIfAbsent
  rw [checked_written]
  cases Arguments.written c "put_if_absent" key value ttl policy with
  | error f => exact fun _ _ => rfl
  | ok w =>
    have hyields : Yields nulls (fun r => nulls = false → r ≠ .null) (do
        startup c
        insertIfAbsent c w.key value w.payload w.ttl w.policy insertionAttempts) :=
      yields_bind (yields_startup c) fun _ _ => yields_insertIfAbsent _ _ _ _ _ _
    refine Abides.mono hyields (fun _ _ h => h) fun told f h fair about => ?_
    rw [h fair] at about
    cases about

end Operation

end ExpiringStore
