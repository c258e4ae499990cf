import ExpiringStore.Codec.Lookup
import ExpiringStore.Codec.Payload
import ExpiringStore.Proofs.Call.Contract
import Mathlib.Data.List.Forall2

/-!
# Payloads that were written

Every payload that a write accepts is an envelope, and the value in an envelope can be read.

    written … = .ok w   →   decode w.payload is some value, whoever asks      (written_decodes)
-/

namespace ExpiringStore

theorem Lookup.ofDecoded_ne_miss (v : Value) : Lookup.ofDecoded v ≠ .miss := by
  cases v <;> exact fun h => nomatch h

namespace Payload

/-- The envelope of a value is none of a null, whatever the value is. -/
theorem isNullEnvelope_value (j : Json) :
    isNullEnvelope (Value.ofJson (.object [(valueField, j)])) = false := by
  show isNullEnvelope (.dict [(.str valueField, Value.ofJson j)]) = false
  unfold isNullEnvelope
  split
  · next k heq =>
    obtain ⟨rfl, -⟩ : Value.str valueField = k ∧ Value.ofJson j = .bool true := by
      simpa using (List.cons.inj (Value.dict.inj heq)).1
    rfl
  · rfl

/-- What cannot be decoded is malformed, or not of the type that was asked for. -/
theorem decode_error {payload : Value} {target : Option Target} {key : Option Key} {f : Failure}
    (h : decode payload target key = .error f) :
    ∃ cause, f = .complaint ⟨cause, some "decode", key⟩ ∧
      (cause = .malformedPayload ∨ ∃ type errors, cause = .typeMismatch type errors) := by
  unfold decode at h
  split at h
  · cases h
  · split at h
    · split at h
      · exact ⟨_, (Except.error.inj h).symm, .inl rfl⟩
      · split at h
        · cases h
        · split at h
          · cases h
          · exact ⟨_, (Except.error.inj h).symm, .inr ⟨_, _, rfl⟩⟩
    · exact ⟨_, (Except.error.inj h).symm, .inl rfl⟩

theorem decode_valueField (j : Json) (key : Option Key) :
    decode (Value.ofJson (.object [(valueField, j)])) none key = .ok (Value.ofJson j) := by
  unfold decode
  rw [isNullEnvelope_value]
  rfl

/-- Only complaints depend on the key that is asked for. -/
theorem decode_key {payload : Value} {target : Option Target} {key : Option Key} {v : Value}
    (h : decode payload target key = .ok v) (key' : Option Key) :
    decode payload target key' = .ok v := by
  unfold decode at h ⊢
  split at h
  · next hnull =>
    rw [if_pos hnull]
    exact h
  · next hnull =>
    rw [if_neg hnull]
    cases payload with
    | dict entries =>
      dsimp only at h ⊢
      cases hraw : Value.entry? valueField entries with
      | none => rw [hraw] at h; cases h
      | some raw =>
        rw [hraw] at h
        cases target with
        | none => exact h
        | some t =>
          dsimp only at h ⊢
          cases hread : t.shape.read raw with
          | ok v' => rw [hread] at h; exact h
          | error n => rw [hread] at h; cases h
    | _ => cases h

theorem encode_key {v : Value} {key : Option Key} {p : Json} (h : encode v key = .ok p)
    (key' : Option Key) : encode v key' = .ok p := by
  unfold encode at h ⊢
  split at h
  · next hnull => rw [if_pos hnull, h]
  · next hnull =>
    rw [if_neg hnull]
    split at h
    · exact h
    · cases h

theorem envelope_ne_null (j : Json) : Json.object [(valueField, j)] ≠ null := by
  intro h
  simp [null, valueField, nullField] at h

/-- What is encoded is the envelope of a null, or that of a value. -/
theorem encode_cases {v : Value} {key : Option Key} {p : Json} (h : encode v key = .ok p) :
    p = null ∨ ∃ j, p = .object [(valueField, j)] := by
  unfold encode at h
  split at h
  · exact .inl (Except.ok.inj h).symm
  · split at h
    · next j _ => exact .inr ⟨j, (Except.ok.inj h).symm⟩
    · cases h

theorem decode_encode {v : Value} {key : Option Key} {p : Json} (h : encode v key = .ok p) :
    ∃ x, ∀ key', decode (Value.ofJson p) none key' = .ok x := by
  rcases encode_cases h with rfl | ⟨j, rfl⟩
  · exact ⟨.nullMarker, fun _ => rfl⟩
  · exact ⟨Value.ofJson j, decode_valueField j⟩

end Payload

namespace Arguments

variable {τ : Type}

theorem bind_ok {ε α β : Type} {x : Except ε α} {f : α → Except ε β} {b : β}
    (h : (x >>= f) = .ok b) : ∃ a, x = .ok a ∧ f a = .ok b := by
  cases x with
  | error e => cases h
  | ok a => exact ⟨a, rfl, h⟩

/-- The checks that the arguments of a write have passed. -/
theorem written_ok {c : Config τ} {operation : String} {key value ttl policy : Value} {w : Written}
    (h : written c operation key value ttl policy = .ok w) :
    Arguments.key key operation = .ok w.key ∧
      ttlOr c.defaultTtl ttl operation (some w.key) = .ok w.ttl ∧
      Arguments.policy policy operation (some w.key) = .ok w.policy ∧
      payload c.allowNull w.key value operation = .ok w.payload := by
  unfold written at h
  obtain ⟨k, hk, h⟩ := bind_ok h
  obtain ⟨n, hn, h⟩ := bind_ok h
  obtain ⟨o, ho, h⟩ := bind_ok h
  obtain ⟨j, hj, h⟩ := bind_ok h
  obtain rfl := Except.ok.inj h
  exact ⟨hk, hn, ho, hj⟩

theorem payload_encoded {allowNull : Bool} {k : Key} {v : Value} {operation : String} {p : Json}
    (h : payload allowNull k v operation = .ok p) : Payload.encode v (some k) = .ok p := by
  unfold payload at h
  split at h
  · cases h
  · exact h

theorem written_encoded {c : Config τ} {operation : String} {key value ttl policy : Value}
    {w : Written} (h : written c operation key value ttl policy = .ok w) :
    Payload.encode value (some w.key) = .ok w.payload :=
  payload_encoded (written_ok h).2.2.2

theorem written_decodes {c : Config τ} {operation : String} {key value ttl policy : Value}
    {w : Written} (h : written c operation key value ttl policy = .ok w) :
    ∃ x, ∀ key, Payload.decode (Value.ofJson w.payload) none key = .ok x :=
  Payload.decode_encode (written_encoded h)

theorem entriesOf_forall₂ {allowNull : Bool} {operation : String} {pairs : List (Value × Value)}
    {batch : List Entry} (h : entriesOf allowNull operation pairs = .ok batch) :
    List.Forall₂ (fun pair e => pair.2 = e.value ∧ key pair.1 operation = .ok e.key ∧
      payload allowNull e.key e.value operation = .ok e.payload) pairs batch := by
  induction pairs generalizing batch with
  | nil =>
    obtain rfl := Except.ok.inj h
    exact .nil
  | cons pair rest ih =>
    obtain ⟨kv, v⟩ := pair
    unfold entriesOf at h
    split at h
    · cases h
    · next k hk =>
      split at h
      · cases h
      · next p hp =>
        cases hrest : entriesOf allowNull operation rest with
        | error f => rw [hrest] at h; cases h
        | ok batch' =>
          rw [hrest] at h
          obtain rfl := Except.ok.inj h
          exact .cons ⟨rfl, hk, hp⟩ (ih hrest)

/-- The checks that each entry of a batch has passed. -/
theorem mem_entriesOf {allowNull : Bool} {operation : String} {pairs : List (Value × Value)}
    {batch : List Entry} (h : entriesOf allowNull operation pairs = .ok batch) {e : Entry}
    (mem : e ∈ batch) : ∃ pair ∈ pairs, pair.2 = e.value ∧ key pair.1 operation = .ok e.key ∧
      payload allowNull e.key e.value operation = .ok e.payload := by
  have hall := entriesOf_forall₂ h
  clear h
  induction hall with
  | nil => cases mem
  | cons accepted _ ih =>
    rcases List.mem_cons.1 mem with rfl | mem
    · exact ⟨_, List.mem_cons_self, accepted⟩
    · obtain ⟨pair, hpair, accepted⟩ := ih mem
      exact ⟨pair, List.mem_cons_of_mem _ hpair, accepted⟩

/-- The checks that the arguments of a write of many entries have passed. -/
theorem writtenMany_ok {c : Config τ} {entries ttl policy : Value} {w : WrittenMany}
    (h : writtenMany c entries ttl policy = .ok w) :
    ttlOr c.defaultTtl ttl "put_all" = .ok w.ttl ∧
      Arguments.policy policy "put_all" = .ok w.policy ∧
      (w.entries = [] ∨ ∃ pairs, entries = .dict pairs ∧
        entriesOf c.allowNull "put_all" pairs = .ok w.entries) := by
  unfold writtenMany at h
  obtain ⟨n, hn, h⟩ := bind_ok h
  obtain ⟨o, ho, h⟩ := bind_ok h
  split at h
  · obtain ⟨batch, hbatch, h⟩ := bind_ok h
    obtain rfl := Except.ok.inj h
    unfold Arguments.entries at hbatch
    split at hbatch
    · exact ⟨hn, ho, .inr ⟨_, rfl, hbatch⟩⟩
    · cases hbatch
  · obtain rfl := Except.ok.inj h
    exact ⟨hn, ho, .inl rfl⟩

theorem writtenMany_encoded {c : Config τ} {entries ttl policy : Value} {w : WrittenMany}
    (h : writtenMany c entries ttl policy = .ok w) :
    ∀ e ∈ w.entries, Payload.encode e.value (some e.key) = .ok e.payload := by
  intro e mem
  rcases (writtenMany_ok h).2.2 with hnone | ⟨pairs, -, hbatch⟩
  · rw [hnone] at mem
    cases mem
  · obtain ⟨_, -, -, -, hpayload⟩ := mem_entriesOf hbatch mem
    exact payload_encoded hpayload

theorem writtenMany_decodes {c : Config τ} {entries ttl policy : Value} {w : WrittenMany}
    (h : writtenMany c entries ttl policy = .ok w) :
    ∀ e ∈ w.entries, ∃ x, ∀ key, Payload.decode (Value.ofJson e.payload) none key = .ok x :=
  fun e mem => Payload.decode_encode (writtenMany_encoded h e mem)

theorem writtenMany_falsy {c : Config τ} {entries ttl policy : Value} {w : WrittenMany}
    (h : writtenMany c entries ttl policy = .ok w) (hfalsy : entries.isTruthy = false) :
    w.entries = [] := by
  unfold writtenMany at h
  obtain ⟨n, -, h⟩ := bind_ok h
  obtain ⟨o, -, h⟩ := bind_ok h
  rw [if_neg (by simp [hfalsy])] at h
  obtain rfl := Except.ok.inj h
  rfl

end Arguments

end ExpiringStore
