import ExpiringStore.Proofs.Codec.Payload

/-!
# Arguments that are accepted

Every operation checks its arguments in the same way: only what is said of an argument that is
refused depends on the operation, and on the key that it is about.  What one operation accepts, all
accept.

    key v op = .ok k          →   key v op' = .ok k                            (key_accepted)
    keys v op = .ok ks        →   the texts of ks differ, and each of ks is accepted
    payload … op = .ok p      →   payload … op' = .ok p                        (payload_accepted)
-/

namespace ExpiringStore

/-! ## Keys -/

theorem Key.ofValue?_toValue (k : Key) : Key.ofValue? k.toValue = some k := by
  cases k <;> rfl

theorem Key.nodup_distinct (ks : List Key) : ((Key.distinct ks).map (·.text)).Nodup := by
  induction ks with
  | nil => exact List.nodup_nil
  | cons k rest ih =>
    refine List.nodup_cons.2 ⟨fun mem => ?_, ih.sublist (List.filter_sublist.map _)⟩
    obtain ⟨k', hk', htext⟩ := List.mem_map.1 mem
    have hne := (List.mem_filter.1 hk').2
    simp only [bne_iff_ne] at hne
    exact hne htext

theorem Key.mem_of_mem_distinct {k : Key} {ks : List Key} (h : k ∈ Key.distinct ks) : k ∈ ks := by
  induction ks with
  | nil => cases h
  | cons k' rest ih =>
    rcases List.mem_cons.1 h with rfl | h
    · exact List.mem_cons_self
    · exact List.mem_cons_of_mem _ (ih (List.mem_filter.1 h).1)

namespace Arguments

variable {v : Value} {operation : String}

/-- A key that is accepted by one operation is accepted by all, in whatever form it comes. -/
theorem key_of_ofValue? {k : Key} (h : key v operation = .ok k) :
    Key.ofValue? v = some k ∧
      ∀ v' operation', Key.ofValue? v' = some k → key v' operation' = .ok k := by
  unfold key at h
  cases hk : Key.ofValue? v with
  | none =>
    rw [hk] at h
    cases h
  | some k' =>
    rw [hk] at h
    dsimp only at h
    split at h
    · cases h
    · next hsome =>
      split at h
      · cases h
      · next hshort =>
        obtain rfl := Except.ok.inj h
        refine ⟨rfl, fun v' operation' hv' => ?_⟩
        unfold key
        rw [hv']
        dsimp only
        rw [if_neg hsome, if_neg hshort]

theorem key_accepted {k : Key} (h : key v operation = .ok k) (operation' : String) :
    key v operation' = .ok k :=
  (key_of_ofValue? h).2 v operation' (key_of_ofValue? h).1

theorem key_toValue {k : Key} (h : key v operation = .ok k) (operation' : String) :
    key k.toValue operation' = .ok k :=
  (key_of_ofValue? h).2 k.toValue operation' k.ofValue?_toValue

theorem mem_keysOf {items : List Value} {ks : List Key} (h : keysOf operation items = .ok ks)
    {k : Key} (mem : k ∈ ks) : ∃ v, key v operation = .ok k := by
  induction items generalizing ks with
  | nil =>
    obtain rfl := Except.ok.inj h
    cases mem
  | cons v rest ih =>
    unfold keysOf at h
    split at h
    · cases h
    · next k' hk' =>
      cases hrest : keysOf operation rest with
      | error f => rw [hrest] at h; cases h
      | ok ks' =>
        rw [hrest] at h
        obtain rfl := Except.ok.inj h
        rcases List.mem_cons.1 mem with rfl | mem
        · exact ⟨v, hk'⟩
        · exact ih hrest mem

/-- The keys of a collection are the distinct ones among keys that are accepted. -/
theorem keys_ok {ks : List Key} (h : keys v operation = .ok ks) :
    ∃ items all, keysOf operation items = .ok all ∧ ks = Key.distinct all := by
  have hdistinct {items : List Value} (h : (keysOf operation items).map Key.distinct = .ok ks) :
      ∃ items all, keysOf operation items = .ok all ∧ ks = Key.distinct all := by
    cases hkeys : keysOf operation items with
    | error f => rw [hkeys] at h; cases h
    | ok all =>
      rw [hkeys] at h
      exact ⟨items, all, hkeys, (Except.ok.inj h).symm⟩
  unfold keys at h
  dsimp only at h
  split at h
  · exact hdistinct h
  · cases h
  · cases h
  · cases h
  · split at h
    · exact hdistinct h
    · cases h

theorem nodup_keys {ks : List Key} (h : keys v operation = .ok ks) : (ks.map (·.text)).Nodup := by
  obtain ⟨_, all, -, rfl⟩ := keys_ok h
  exact Key.nodup_distinct all

/-- Each key of a collection is accepted alone. -/
theorem keys_accepted {ks : List Key} (h : keys v operation = .ok ks) {k : Key} (mem : k ∈ ks)
    (operation' : String) : key k.toValue operation' = .ok k := by
  obtain ⟨_, all, hall, rfl⟩ := keys_ok h
  obtain ⟨v, hv⟩ := mem_keysOf hall (Key.mem_of_mem_distinct mem)
  exact key_toValue hv operation'

/-! ## Lifetimes and policies -/

variable {about : Option Key}

/-- A lifetime argument is a duration or a number that fits a double. -/
theorem seconds_eq_ok {x : Float} : seconds v operation about = .ok x ↔
    (∃ d, v = .duration d ∧ d.toSeconds = x) ∨
      ∃ n, v.number? = some n ∧ n.toDouble? = some x := by
  unfold seconds
  cases v with
  | duration d => simp [Value.number?]
  | int n | float n =>
    dsimp only [Value.number?]
    split
    · next hx => simp [hx]
    · next hx => simp [hx]
  | _ => simp [Value.number?, refuse]

theorem seconds_accepted {x : Float} (h : seconds v operation about = .ok x)
    (operation' : String) (about' : Option Key) : seconds v operation' about' = .ok x :=
  seconds_eq_ok.2 (seconds_eq_ok.1 h)

theorem ttl_accepted {n : Int} (h : ttl v operation about = .ok n) (operation' : String)
    (about' : Option Key) : ttl v operation' about' = .ok n := by
  unfold ttl at h ⊢
  obtain ⟨x, hx, h⟩ := bind_ok h
  rw [seconds_accepted hx operation' about']
  show (if x ≤ 0 then _ else _) = _
  split at h
  · cases h
  · next hpositive =>
    rw [if_neg hpositive]
    split at h
    · cases h
    · cases h
    · next d hd =>
      split at h
      · cases h
      · next hlong =>
        rw [if_neg hlong]
        exact h

theorem ttlOr_accepted {fallback n : Option Int} (h : ttlOr fallback v operation about = .ok n)
    (operation' : String) (about' : Option Key) : ttlOr fallback v operation' about' = .ok n := by
  have hgiven (h : (ttl v operation about).map some = .ok n) :
      (ttl v operation' about').map some = .ok n := by
    cases hn : ttl v operation about with
    | error f => rw [hn] at h; cases h
    | ok n' =>
      rw [hn] at h
      rw [ttl_accepted hn operation' about']
      exact h
  unfold ttlOr at h ⊢
  cases v with
  | none => exact h
  | _ => exact hgiven h

theorem policy_eq_ok {p : Policy} : policy v operation about = .ok p ↔
    (v.text?.map capitalize).bind Policy.ofWord? = some p := by
  unfold policy
  cases v with
  | none => simp [Value.text?, refuse]
  | _ =>
    dsimp only
    split
    · next hword => rw [hword]; simp
    · next hword => rw [hword]; simp [refuse]

theorem policy_accepted {p : Policy} (h : policy v operation about = .ok p) (operation' : String)
    (about' : Option Key) : policy v operation' about' = .ok p :=
  policy_eq_ok.2 (policy_eq_ok.1 h)

/-! ## Entries -/

theorem payload_accepted {allowNull : Bool} {k : Key} {p : Json}
    (h : payload allowNull k v operation = .ok p) (operation' : String) :
    payload allowNull k v operation' = .ok p := by
  unfold payload at h ⊢
  split at h
  · cases h
  · next hnull =>
    rw [if_neg hnull]
    exact h

section
variable {τ : Type} {c : Config τ} {value ttl policy : Value}

/-- A write of one entry whose arguments are accepted one by one. -/
theorem written_of {k : Key} {n : Option Int} {o : Policy} {p : Json}
    (hk : key v operation = .ok k) (hn : ttlOr c.defaultTtl ttl operation (some k) = .ok n)
    (ho : Arguments.policy policy operation (some k) = .ok o)
    (hp : payload c.allowNull k value operation = .ok p) :
    written c operation v value ttl policy = .ok ⟨k, n, o, p⟩ := by
  simp only [written, hk, hn, ho, hp, bind, Except.bind]
  rfl

/-- A write of a batch whose arguments are accepted one by one. -/
theorem writtenMany_of {pairs : List (Value × Value)} {batch : List Entry} {n : Option Int}
    {o : Policy} (hn : ttlOr c.defaultTtl ttl "put_all" = .ok n)
    (ho : Arguments.policy policy "put_all" = .ok o)
    (hbatch : entriesOf c.allowNull "put_all" pairs = .ok batch) :
    writtenMany c (.dict pairs) ttl policy = .ok ⟨batch, n, o⟩ := by
  cases pairs with
  | nil =>
    obtain rfl := Except.ok.inj hbatch
    simp only [writtenMany, hn, ho, bind, Except.bind]
    rfl
  | cons pair rest =>
    have hentries : entries c.allowNull (.dict (pair :: rest)) "put_all" = .ok batch := hbatch
    simp only [writtenMany, hn, ho, hentries, bind, Except.bind]
    rfl

end

/-! ## Limits -/

theorem key_limits {k : Key} (h : key v operation = .ok k) :
    0 < k.text.length ∧ k.text.length ≤ Key.maxLength := by
  unfold key at h
  split at h
  · cases h
  · split at h
    · cases h
    · next hsome =>
      split at h
      · cases h
      · next hshort =>
        obtain rfl := Except.ok.inj h
        refine ⟨Nat.pos_of_ne_zero fun hzero => hsome ?_, Nat.not_lt.1 hshort⟩
        rw [String.length_eq_zero_iff.1 hzero]
        rfl

theorem ttl_least {n : Int} (h : ttl v operation about = .ok n) : 1 ≤ n := by
  unfold ttl at h
  obtain ⟨x, -, h⟩ := bind_ok h
  split at h
  · cases h
  · split at h
    · cases h
    · cases h
    · split at h
      · cases h
      · next hlong =>
        obtain rfl := Except.ok.inj h
        exact Int.not_lt.1 hlong

theorem ttlOr_least {fallback n? : Option Int} (least : ∀ n ∈ fallback, 1 ≤ n)
    (h : ttlOr fallback v operation about = .ok n?) : ∀ n ∈ n?, 1 ≤ n := by
  unfold ttlOr at h
  split at h
  · obtain rfl := Except.ok.inj h
    exact least
  · cases hn : ttl v operation about with
    | error f => rw [hn] at h; cases h
    | ok n =>
      rw [hn] at h
      obtain rfl := Except.ok.inj h
      rintro _ ⟨⟩
      exact ttl_least hn

/-- A renewal is for at least one second. -/
theorem renewal_least {key ttl policy : Value} {w : Renewal} (h : renewal key ttl policy = .ok w) :
    1 ≤ w.ttl := by
  unfold renewal at h
  obtain ⟨k, -, h⟩ := bind_ok h
  obtain ⟨n, hn, h⟩ := bind_ok h
  obtain ⟨o, -, h⟩ := bind_ok h
  obtain rfl := Except.ok.inj h
  unfold ttlGiven at hn
  split at hn
  · cases hn
  · exact ttl_least hn

/-- What is given and allowed is not the envelope of a null, if there are to be none. -/
theorem payload_ne_null {k : Key} {p : Json} (h : payload false k v operation = .ok p) :
    p ≠ Payload.null := by
  unfold payload at h
  split at h
  · cases h
  · next hnull =>
    unfold Payload.encode at h
    rw [if_neg (by simpa using hnull)] at h
    split at h
    · obtain rfl := Except.ok.inj h
      exact Payload.envelope_ne_null _
    · cases h

end Arguments

end ExpiringStore
