import ExpiringStore.Proofs.Codec.Payload

/-!
# Values that are stored and read back

The stored form of a value names no field twice, and a form that names no field twice is its own
stored form, if it is not too deep.  So nothing is lost on a second trip, and nothing at all of the
values that structured data can write.  Envelopes have one field each, `v` or `null`, whatever a
value holds inside: the two are never confused.

    v.toJson? = .ok j                                 →   j names no field twice
    j names no field twice, depth j ≤ maxNesting      →   (ofJson j).toJson? = .ok j
    encode v = .ok p                                  →   decode p = null   ↔   v is null
-/

namespace ExpiringStore

namespace Json

/-! ## Levels and names -/

mutual

/-- The number of levels in structured data. -/
def depth : Json → Nat
  | .array items => depthItems items + 1
  | .object fields => depthFields fields + 1
  | _ => 1

def depthItems : List Json → Nat
  | [] => 0
  | j :: rest => max (depth j) (depthItems rest)

def depthFields : List (String × Json) → Nat
  | [] => 0
  | (_, j) :: rest => max (depth j) (depthFields rest)

end

/-- Structured data in which no object names a field twice. -/
inductive Distinct : Json → Prop
  | null : Distinct .null
  | bool (b : Bool) : Distinct (.bool b)
  | int (n : Int) : Distinct (.int n)
  | float (x : Float) : Distinct (.float x)
  | str (s : String) : Distinct (.str s)
  | array {items : List Json} (members : ∀ j ∈ items, Distinct j) : Distinct (.array items)
  | object {fields : List (String × Json)} (names : (fields.map (·.1)).Nodup)
      (members : ∀ f ∈ fields, Distinct f.2) : Distinct (.object fields)

theorem mem_put {name : String} {value : Json} {fields : List (String × Json)}
    {f : String × Json} (h : f ∈ put name value fields) : f = (name, value) ∨ f ∈ fields := by
  induction fields with
  | nil => exact .inl (List.mem_singleton.1 h)
  | cons g rest ih =>
    obtain ⟨n, v⟩ := g
    unfold put at h
    split at h
    · next hn =>
      obtain rfl := beq_iff_eq.1 hn
      exact (List.mem_cons.1 h).imp_right (List.mem_cons_of_mem _)
    · rcases List.mem_cons.1 h with rfl | h
      · exact .inr List.mem_cons_self
      · exact (ih h).imp_right (List.mem_cons_of_mem _)

theorem names_put_nodup (name : String) (value : Json) {fields : List (String × Json)}
    (names : (fields.map (·.1)).Nodup) : ((put name value fields).map (·.1)).Nodup := by
  induction fields with
  | nil => simp [put]
  | cons g rest ih =>
    obtain ⟨n, v⟩ := g
    obtain ⟨hn, hrest⟩ := List.nodup_cons.1 names
    unfold put
    split
    · exact names
    · next hne =>
      refine List.nodup_cons.2 ⟨fun mem => ?_, ih hrest⟩
      obtain ⟨f, hf, hname⟩ := List.mem_map.1 mem
      rcases mem_put hf with rfl | hf
      · exact hne (beq_iff_eq.2 hname.symm)
      · exact hn (List.mem_map.2 ⟨f, hf, hname⟩)

/-- Fields that are put one after the other make an object that names none twice. -/
theorem distinct_fieldsOf {pairs : List (String × Json)} (members : ∀ p ∈ pairs, Distinct p.2) :
    Distinct (.object (fieldsOf pairs)) := by
  have hfold : ∀ fields : List (String × Json), Distinct (.object fields) →
      Distinct (.object (pairs.foldl (fun fields p => put p.1 p.2 fields) fields)) := by
    induction pairs with
    | nil => exact fun _ h => h
    | cons p rest ih =>
      intro fields h
      cases h with
      | object names inside =>
        refine ih (fun q hq => members q (List.mem_cons_of_mem _ hq)) _
          (.object (names_put_nodup p.1 p.2 names) fun f hf => ?_)
        rcases mem_put hf with rfl | hf
        · exact members p List.mem_cons_self
        · exact inside f hf
  exact hfold [] (.object List.nodup_nil fun f hf => nomatch hf)

theorem put_of_new {name : String} {value : Json} {fields : List (String × Json)}
    (new : name ∉ fields.map (·.1)) : put name value fields = fields ++ [(name, value)] := by
  induction fields with
  | nil => rfl
  | cons g rest ih =>
    obtain ⟨n, v⟩ := g
    obtain ⟨hne, hrest⟩ := not_or.1 fun h => new (List.mem_cons.2 h)
    unfold put
    rw [if_neg fun h => hne (beq_iff_eq.1 h).symm, ih hrest]
    rfl

/-- Fields that have different names stay as they are put. -/
theorem fieldsOf_of_nodup {pairs : List (String × Json)} (names : (pairs.map (·.1)).Nodup) :
    fieldsOf pairs = pairs := by
  have hfold : ∀ fields : List (String × Json), ((fields ++ pairs).map (·.1)).Nodup →
      pairs.foldl (fun fields p => put p.1 p.2 fields) fields = fields ++ pairs := by
    clear names
    induction pairs with
    | nil => exact fun fields _ => (List.append_nil fields).symm
    | cons p rest ih =>
      intro fields names
      have hnew : p.1 ∉ fields.map (·.1) := by
        intro mem
        rw [List.map_append] at names
        exact (List.nodup_append.1 names).2.2 _ mem _ List.mem_cons_self rfl
      rw [List.foldl_cons, put_of_new hnew, ih _ (by simpa using names)]
      simp
  exact hfold [] names

end Json

namespace Value

open Json (Distinct depth depthItems depthFields)

/-! ## Stored forms -/

theorem within_ok {level : Nat} {form : Unit → Except Unencodable Json} {j : Json}
    (h : within level form = .ok j) : form () = .ok j := by
  unfold within at h
  split at h
  · cases h
  · exact h

theorem within_of_le {level : Nat} (form : Unit → Except Unencodable Json)
    (h : level ≤ maxNesting) : within level form = form () :=
  if_neg (Nat.not_lt.2 h)

theorem map_ok {ε α β : Type} {x : Except ε α} {f : α → β} {b : β} (h : x.map f = .ok b) :
    ∃ a, x = .ok a ∧ f a = b := by
  cases x with
  | error e => cases h
  | ok a => exact ⟨a, rfl, Except.ok.inj h⟩

mutual

theorem distinct_of_toJsonAt {level : Nat} {j : Json} :
    (v : Value) → v.toJsonAt level = .ok j → j.Distinct
  | .none, h => by
    unfold toJsonAt at h
    obtain rfl := Except.ok.inj (within_ok h)
    exact .null
  | .bool b, h => by
    unfold toJsonAt at h
    obtain rfl := Except.ok.inj (within_ok h)
    exact .bool b
  | .int n, h => by
    unfold toJsonAt at h
    obtain rfl := Except.ok.inj (within_ok h)
    exact .int n
  | .float x, h => by
    unfold toJsonAt at h
    obtain rfl := Except.ok.inj (within_ok h)
    exact .float x
  | .bytes b, h => by
    unfold toJsonAt at h
    obtain ⟨s, -, rfl⟩ := map_ok (within_ok h)
    exact .str s
  | .list items, h | .tuple items, h | .set items, h => by
    unfold toJsonAt at h
    obtain ⟨js, hjs, rfl⟩ := map_ok (within_ok h)
    exact .array (distinct_of_toJsonItems items hjs)
  | .dict entries, h => by
    unfold toJsonAt at h
    obtain ⟨fields, hfields, rfl⟩ := map_ok (within_ok h)
    exact Json.distinct_fieldsOf (distinct_of_toJsonEntries entries hfields)
  | .record _ _ fields, h => by
    unfold toJsonAt at h
    obtain ⟨fields', hfields, rfl⟩ := map_ok (within_ok h)
    exact Json.distinct_fieldsOf (distinct_of_toJsonFields fields hfields)
  | .str _, h | .moment _, h | .date _, h | .time _, h | .duration _, h | .decimal _, h
  | .uuid _, h | .member _, h => by
    unfold toJsonAt at h
    obtain rfl := Except.ok.inj (within_ok h)
    exact .str _
  | .endless, h | .nullMarker, h | .object, h => by
    unfold toJsonAt at h
    cases within_ok h

theorem distinct_of_toJsonItems {level : Nat} {js : List Json} :
    (items : List Value) → toJsonItems level items = .ok js → ∀ j ∈ js, j.Distinct
  | [], h => by
    obtain rfl := Except.ok.inj h
    exact fun j mem => nomatch mem
  | v :: rest, h => by
    unfold toJsonItems at h
    split at h
    · cases h
    · next j hj =>
      split at h
      · cases h
      · next js' hjs =>
        obtain rfl := Except.ok.inj h
        exact List.forall_mem_cons.2
          ⟨distinct_of_toJsonAt v hj, distinct_of_toJsonItems rest hjs⟩

theorem distinct_of_toJsonEntries {level : Nat} {fields : List (String × Json)} :
    (entries : List (Value × Value)) → toJsonEntries level entries = .ok fields →
      ∀ f ∈ fields, f.2.Distinct
  | [], h => by
    obtain rfl := Except.ok.inj h
    exact fun f mem => nomatch mem
  | (k, v) :: rest, h => by
    unfold toJsonEntries at h
    split at h
    · cases h
    · split at h
      · cases h
      · next j hj =>
        split at h
        · cases h
        · next fields' hfields =>
          obtain rfl := Except.ok.inj h
          exact List.forall_mem_cons.2
            ⟨distinct_of_toJsonAt v hj, distinct_of_toJsonEntries rest hfields⟩

theorem distinct_of_toJsonFields {level : Nat} {fields : List (String × Json)} :
    (members : List (String × Value)) → toJsonFields level members = .ok fields →
      ∀ f ∈ fields, f.2.Distinct
  | [], h => by
    obtain rfl := Except.ok.inj h
    exact fun f mem => nomatch mem
  | (name, v) :: rest, h => by
    unfold toJsonFields at h
    split at h
    · cases h
    · next j hj =>
      split at h
      · cases h
      · next fields' hfields =>
        obtain rfl := Except.ok.inj h
        exact List.forall_mem_cons.2
          ⟨distinct_of_toJsonAt v hj, distinct_of_toJsonFields rest hfields⟩

end

/-! ## Structured data as values -/

theorem toJsonItems_ofJsonItems {level : Nat} {items : List Json}
    (members : ∀ j ∈ items, level + j.depth ≤ maxNesting + 1 →
      (ofJson j).toJsonAt level = .ok j)
    (room : level + depthItems items ≤ maxNesting + 1) :
    toJsonItems level (ofJsonItems items) = .ok items := by
  induction items with
  | nil => rfl
  | cons j rest ih =>
    have hroom : level + max j.depth (depthItems rest) ≤ maxNesting + 1 := room
    have hj := members j List.mem_cons_self (by omega)
    have hrest := ih (fun j hj => members j (List.mem_cons_of_mem _ hj)) (by omega)
    unfold ofJsonItems toJsonItems
    rw [hj, hrest]

theorem toJsonEntries_ofJsonFields {level : Nat} {fields : List (String × Json)}
    (members : ∀ f ∈ fields, level + f.2.depth ≤ maxNesting + 1 →
      (ofJson f.2).toJsonAt level = .ok f.2)
    (room : level + depthFields fields ≤ maxNesting + 1) :
    toJsonEntries level (ofJsonFields fields) = .ok fields := by
  induction fields with
  | nil => rfl
  | cons f rest ih =>
    obtain ⟨name, j⟩ := f
    have hroom : level + max j.depth (depthFields rest) ≤ maxNesting + 1 := room
    have hj := members (name, j) List.mem_cons_self (by show level + j.depth ≤ _; omega)
    have hrest := ih (fun f hf => members f (List.mem_cons_of_mem _ hf)) (by omega)
    have hname : fieldName? (.str name) = .ok name := by unfold fieldName?; rfl
    unfold ofJsonFields toJsonEntries
    rw [hname, hj, hrest]

/-- Structured data that names no field twice is the stored form of itself as a value, if there is
room for its levels. -/
theorem toJsonAt_ofJson {j : Json} (distinct : j.Distinct) {level : Nat}
    (room : level + j.depth ≤ maxNesting + 1) : (ofJson j).toJsonAt level = .ok j := by
  induction distinct generalizing level with
  | null | bool | int | float | str =>
    unfold ofJson toJsonAt
    exact within_of_le _ (Nat.le_of_succ_le_succ room)
  | @array items _ ih =>
    have hroom : level + (depthItems items + 1) ≤ maxNesting + 1 := room
    unfold ofJson toJsonAt
    rw [within_of_le _ (by omega),
      toJsonItems_ofJsonItems (fun j hj => ih j hj) (by omega)]
    rfl
  | @object fields names _ ih =>
    have hroom : level + (depthFields fields + 1) ≤ maxNesting + 1 := room
    unfold ofJson toJsonAt
    rw [within_of_le _ (by omega),
      toJsonEntries_ofJsonFields (fun f hf => ih f hf) (by omega)]
    show Except.ok (Json.object (Json.fieldsOf fields)) = _
    rw [Json.fieldsOf_of_nodup names]

/-- Values of nothing but none, truth values, numbers, texts, lists, and dictionaries keyed by
texts, on so many levels. -/
inductive IsPlain : Nat → Value → Prop
  | none (n : Nat) : IsPlain (n + 1) .none
  | bool (n : Nat) (b : Bool) : IsPlain (n + 1) (.bool b)
  | int (n : Nat) (i : Int) : IsPlain (n + 1) (.int i)
  | float (n : Nat) (x : Float) : IsPlain (n + 1) (.float x)
  | str (n : Nat) (s : String) : IsPlain (n + 1) (.str s)
  | list {n : Nat} {items : List Value} (members : ∀ v ∈ items, IsPlain n v) :
      IsPlain (n + 1) (.list items)
  | dict {n : Nat} {entries : List (String × Value)} (names : (entries.map (·.1)).Nodup)
      (members : ∀ e ∈ entries, IsPlain n e.2) :
      IsPlain (n + 1) (.dict (entries.map fun e => (.str e.1, e.2)))

theorem ofJsonItems_of_plain {n : Nat} {items : List Value}
    (members : ∀ v ∈ items, ∃ j, v = ofJson j ∧ j.Distinct ∧ j.depth ≤ n) :
    ∃ js, items = ofJsonItems js ∧ (∀ j ∈ js, j.Distinct) ∧ depthItems js ≤ n := by
  induction items with
  | nil => exact ⟨[], rfl, fun _ mem => absurd mem List.not_mem_nil, Nat.zero_le n⟩
  | cons v rest ih =>
    obtain ⟨j, rfl, hj, hdepth⟩ := members v List.mem_cons_self
    obtain ⟨js, rfl, hjs, hdepths⟩ := ih fun v hv => members v (List.mem_cons_of_mem _ hv)
    exact ⟨j :: js, rfl, List.forall_mem_cons.2 ⟨hj, hjs⟩, Nat.max_le.2 ⟨hdepth, hdepths⟩⟩

/-- Plain entries are structured data, under the names that they have. -/
theorem ofJsonFields_of_plain {n : Nat} {entries : List (String × Value)}
    (members : ∀ e ∈ entries, ∃ j, e.2 = ofJson j ∧ j.Distinct ∧ j.depth ≤ n) :
    ∃ fields, entries.map (fun e => (Value.str e.1, e.2)) = ofJsonFields fields ∧
      fields.map (·.1) = entries.map (·.1) ∧ (∀ f ∈ fields, f.2.Distinct) ∧
      depthFields fields ≤ n := by
  induction entries with
  | nil => exact ⟨[], rfl, rfl, fun _ mem => absurd mem List.not_mem_nil, Nat.zero_le n⟩
  | cons e rest ih =>
    obtain ⟨name, v⟩ := e
    obtain ⟨j, hv, hj, hdepth⟩ := members (name, v) List.mem_cons_self
    obtain rfl : v = ofJson j := hv
    obtain ⟨fields, hfields, hnames, hjs, hdepths⟩ :=
      ih fun e he => members e (List.mem_cons_of_mem _ he)
    refine ⟨(name, j) :: fields, ?_, ?_, List.forall_mem_cons.2 ⟨hj, hjs⟩,
      Nat.max_le.2 ⟨hdepth, hdepths⟩⟩
    · rw [List.map_cons, hfields]
      rfl
    · rw [List.map_cons, List.map_cons, hnames]

/-- Plain values are structured data, on as many levels. -/
theorem IsPlain.eq_ofJson {n : Nat} {v : Value} (plain : v.IsPlain n) :
    ∃ j, v = ofJson j ∧ j.Distinct ∧ j.depth ≤ n := by
  induction plain with
  | none n => exact ⟨.null, rfl, .null, Nat.succ_pos n⟩
  | bool n b => exact ⟨.bool b, rfl, .bool b, Nat.succ_pos n⟩
  | int n i => exact ⟨.int i, rfl, .int i, Nat.succ_pos n⟩
  | float n x => exact ⟨.float x, rfl, .float x, Nat.succ_pos n⟩
  | str n s => exact ⟨.str s, rfl, .str s, Nat.succ_pos n⟩
  | list _ ih =>
    obtain ⟨js, rfl, hjs, hdepth⟩ := ofJsonItems_of_plain ih
    exact ⟨.array js, rfl, .array hjs, Nat.succ_le_succ hdepth⟩
  | dict names _ ih =>
    obtain ⟨fields, hfields, hnames, hjs, hdepth⟩ := ofJsonFields_of_plain ih
    rw [hfields]
    exact ⟨.object fields, rfl, .object (hnames ▸ names) hjs, Nat.succ_le_succ hdepth⟩

/-- Structured data does not hold the marker of a null. -/
theorem ofJson_ne_nullMarker (j : Json) : ofJson j ≠ .nullMarker := by
  cases j <;> exact fun h => nomatch h

end Value

/-! ## Envelopes -/

namespace Payload

theorem encode_of_toJson? {v : Value} {j : Json} (hnull : isNull v = false)
    (h : v.toJson? = .ok j) (key : Option Key) :
    encode v key = .ok (.object [(valueField, j)]) := by
  unfold encode
  rw [hnull, if_neg Bool.false_ne_true, h]

/-- The payload of a value is the envelope of a null, or the envelope of its stored form. -/
theorem encode_ok {v : Value} {key : Option Key} {p : Json} (h : encode v key = .ok p) :
    (isNull v = true ∧ p = null) ∨
      (isNull v = false ∧ ∃ j, v.toJson? = .ok j ∧ p = .object [(valueField, j)]) := by
  unfold encode at h
  split at h
  · next hnull => exact .inl ⟨hnull, (Except.ok.inj h).symm⟩
  · next hnull =>
    split at h
    · next j hj => exact .inr ⟨eq_false_of_ne_true hnull, j, hj, (Except.ok.inj h).symm⟩
    · cases h

/-- Structured data but null does not stand for null. -/
theorem isNull_ofJson {j : Json} (h : j ≠ .null) : isNull (Value.ofJson j) = false := by
  cases j with
  | null => exact absurd rfl h
  | _ => rfl

/-- Every payload can be read, and is read as a null if and only if it was made of one. -/
theorem decode_encode_isNull {v : Value} {key : Option Key} {p : Json} (h : encode v key = .ok p) :
    ∃ x, (∀ key', decode (Value.ofJson p) none key' = .ok x) ∧
      (x = .nullMarker ↔ isNull v = true) ∧ (Lookup.ofDecoded x).isNull = isNull v := by
  rcases encode_ok h with ⟨hnull, rfl⟩ | ⟨hnull, j, -, rfl⟩
  · exact ⟨.nullMarker, fun _ => rfl, iff_of_true rfl hnull, hnull.symm⟩
  · refine ⟨Value.ofJson j, decode_valueField j, iff_of_false (Value.ofJson_ne_nullMarker j) ?_, ?_⟩
    · rw [hnull]
      exact Bool.false_ne_true
    · rw [hnull]
      cases j <;> rfl

/-- A plain value but none is accepted, and is read back as it was. -/
theorem decode_encode_plain {v : Value} (plain : v.IsPlain maxNesting) (proper : v ≠ .none)
    (key : Option Key) :
    ∃ p, encode v key = .ok p ∧ ∀ key', decode (Value.ofJson p) none key' = .ok v := by
  obtain ⟨j, rfl, distinct, hdepth⟩ := plain.eq_ofJson
  have hnull : isNull (Value.ofJson j) = false := isNull_ofJson fun h => proper (h ▸ rfl)
  have hform : (Value.ofJson j).toJson? = .ok j :=
    Value.toJsonAt_ofJson distinct (by omega)
  exact ⟨_, encode_of_toJson? hnull hform key, decode_valueField j⟩

/-- What is read of a payload has that payload, if its form is not too deep. -/
theorem encode_decode_encode {v : Value} {key : Option Key} {p j : Json} (h : encode v key = .ok p)
    (form : v.toJson? = .ok j) (bare : j ≠ .null) (shallow : j.depth ≤ maxNesting) :
    ∃ x, (∀ key', decode (Value.ofJson p) none key' = .ok x) ∧
      ∀ key', encode x key' = .ok p := by
  rcases encode_ok h with ⟨hnull, -⟩ | ⟨-, j', hj', rfl⟩
  · cases v with
    | none => exact absurd (Except.ok.inj form).symm bare
    | nullMarker => cases form
    | _ => cases hnull
  · obtain rfl := Except.ok.inj (hj'.symm.trans form)
    have hform : (Value.ofJson j').toJson? = .ok j' :=
      Value.toJsonAt_ofJson (Value.distinct_of_toJsonAt v form) (by omega)
    exact ⟨Value.ofJson j', decode_valueField j',
      fun key' => encode_of_toJson? (isNull_ofJson bare) hform key'⟩

/-- The envelope loses nothing and confuses nothing.  Every accepted value is read back, as a null
if and only if it stands for one; a plain value on no more levels than are allowed is accepted and
read back as it was; and what is read back of a value has the payload that the value had, unless
its form is null or has become too deep. -/
theorem envelope_lossless (v : Value) (key : Option Key) :
    (∀ p, encode v key = .ok p →
      ∃ x, (∀ key', decode (Value.ofJson p) none key' = .ok x) ∧
        (x = .nullMarker ↔ isNull v = true) ∧ (Lookup.ofDecoded x).isNull = isNull v) ∧
    (v.IsPlain maxNesting → v ≠ .none →
      ∃ p, encode v key = .ok p ∧ ∀ key', decode (Value.ofJson p) none key' = .ok v) ∧
    (∀ p j, encode v key = .ok p → v.toJson? = .ok j → j ≠ .null → j.depth ≤ maxNesting →
      ∃ x, (∀ key', decode (Value.ofJson p) none key' = .ok x) ∧
        ∀ key', encode x key' = .ok p) :=
  ⟨fun _ => decode_encode_isNull, fun plain proper => decode_encode_plain plain proper key,
    fun _ _ => encode_decode_encode⟩

/-- A value that looks like the envelope of a null, around one that looks like an envelope. -/
def lookalike : Value := .dict [(.str "null", .bool true), (.str "v", .dict [(.str "v", .int 1)])]

theorem lookalike_isPlain : lookalike.IsPlain maxNesting := by
  have inner : (Value.dict [(.str "v", .int 1)]).IsPlain 254 :=
    @Value.IsPlain.dict 253 [("v", .int 1)] (by decide) fun e he => by
      obtain rfl := List.mem_singleton.1 he
      exact .int 252 1
  refine @Value.IsPlain.dict 254 [("null", .bool true), ("v", .dict [(.str "v", .int 1)])]
    (by decide)
    fun e he => ?_
  rcases List.mem_cons.1 he with rfl | he
  · exact .bool 253 true
  · obtain rfl := List.mem_singleton.1 he
    exact inner

theorem envelope_lossless_lookalike :
    ∃ p, encode lookalike = .ok p ∧ decode (Value.ofJson p) = .ok lookalike := by
  obtain ⟨p, hp, hdecode⟩ := (envelope_lossless lookalike none).2.1 lookalike_isPlain
    fun h => nomatch h
  exact ⟨p, hp, hdecode none⟩

end Payload

end ExpiringStore
