import ExpiringStore.Proofs.Call.Accepted
import ExpiringStore.Proofs.Call.Probe
import ExpiringStore.Proofs.Premises.Counted
import ExpiringStore.Proofs.Program.Fair

/-!
# Rows as the store writes them

A row is proper if the store could have written it at the request of its callers: its key has 1 to
512 characters, its payload is the envelope of a value that a request has given for the key, its
lifetime is none or at least a second, its policy is one of the two words, and its instants were
read off the clock.  The last access alone is kept as a value that may be missing, so that a reading
that is no number is kept there as nothing at all.

    Row.IsProper               what rows are like
    IsProper               →   the payload can be read and decoded       (IsProper.decodes)
    call.Makes c deeds a   →   a keeps rows proper                         (Makes.permitted)
-/

namespace ExpiringStore

variable {τ : Type}

/-! ## What requests give -/

def Value.Names (key : String) (v : Value) : Prop := (Key.ofValue? v).map Key.text = some key

/-- Does a call give a value to be written under a key? -/
def Call.Gives (key : String) (v : Value) : Call → Prop
  | .put k given _ _ => k.Names key ∧ given = v
  | .putIfAbsent k given _ _ => k.Names key ∧ given = v
  | .putAll entries _ _ => ∃ pairs, entries = .dict pairs ∧ ∃ p ∈ pairs, p.1.Names key ∧ p.2 = v
  | _ => False

/-- Does a request give a value to be written under a key? -/
def Request.Gives (key : String) (v : Value) : Request → Prop
  | .errand (.call call) => call.Gives key v
  | .checkHealth => key = Operation.probeKey ∧ v = .str "ok"
  | _ => False

theorem Arguments.names_of_key {v : Value} {operation : String} {k : Key}
    (h : Arguments.key v operation = .ok k) : v.Names k.text := by
  unfold Value.Names
  rw [(key_of_ofValue? h).1]
  rfl

/-! ## Proper rows -/

/-- A row as the store writes it, with or without nulls, after requests and readings of the
clock. -/
structure Row.IsProper [Instant τ] (nulls : Bool) (requests : List Request) (readings : List τ)
    (key : String) (r : Row τ) : Prop where
  named : 0 < key.length ∧ key.length ≤ Key.maxLength
  /-- The payload is what a value is encoded to that was given for the key. -/
  encoded : ∃ request ∈ requests, ∃ v, request.Gives key v ∧
    ∃ p, Payload.encode v = .ok p ∧ r.payload = .document p
  solid : nulls = false → r.payload ≠ .document Payload.null
  lasting : ∀ n ∈ r.ttl, ∃ seconds : Int, 1 ≤ seconds ∧ n = Instant.ofSeconds seconds
  policy : r.policy = "ABSOLUTE" ∨ r.policy = "SLIDING"
  updated : r.updatedAt ∈ readings ∧ Instant.isUnknown r.updatedAt = false
  /-- The last access is a reading of the clock as the column keeps it. -/
  accessed : ∃ now ∈ readings, r.lastAccessed = Instant.stored now

theorem Policy.word_cases (p : Policy) : p.word = "ABSOLUTE" ∨ p.word = "SLIDING" := by
  cases p with
  | absolute => exact .inl rfl
  | sliding => exact .inr rfl

theorem Transaction.constrained_eq_ok [Instant τ] {r kept : Row τ} (h : constrained r = .ok kept) :
    Instant.isUnknown r.updatedAt = false ∧
      kept = { r with lastAccessed := r.lastAccessed.bind Instant.stored } := by
  unfold constrained at h
  split at h
  · cases h
  · split at h
    · cases h
    · next hknown => exact ⟨Bool.eq_false_iff.2 hknown, (Except.ok.inj h).symm⟩

namespace Row.IsProper

open Transaction (constrained constrained_eq_ok renewed)

variable [Instant τ] {nulls : Bool} {requests requests' : List Request}
  {readings readings' : List τ} {key : String} {r kept : Row τ} {now : τ}

theorem mono (h : r.IsProper nulls requests readings key) (hrequests : requests ⊆ requests')
    (hreadings : readings ⊆ readings') : r.IsProper nulls requests' readings' key where
  named := h.named
  encoded := by
    obtain ⟨request, mem, given⟩ := h.encoded
    exact ⟨request, hrequests mem, given⟩
  solid := h.solid
  lasting := h.lasting
  policy := h.policy
  updated := ⟨hreadings h.updated.1, h.updated.2⟩
  accessed := by
    obtain ⟨now, mem, hlast⟩ := h.accessed
    exact ⟨now, hreadings mem, hlast⟩

theorem readable (h : r.IsProper nulls requests readings key) : r.payload.readError? = none := by
  obtain ⟨-, -, -, -, p, -, hp⟩ := h.encoded
  rw [hp]
  rfl

/-- The payload can be decoded, to no null unless there may be nulls. -/
theorem decodes (h : r.IsProper nulls requests readings key) : r.Decodes nulls := by
  obtain ⟨-, -, v, -, p, encodes, hp⟩ := h.encoded
  have hsolid := h.solid
  rw [hp] at hsolid
  unfold Decodes
  rw [hp]
  rcases Payload.encode_cases encodes with rfl | ⟨j, rfl⟩
  · exact ⟨.nullMarker, fun _ => rfl, fun hnulls => absurd rfl (hsolid hnulls)⟩
  · refine ⟨Value.ofJson j, Payload.decode_valueField j, fun _ => ?_⟩
    cases j <;> exact fun hnull => by cases hnull

/-- As long as the clock shows numbers, no last access is missing. -/
theorem accessed_known (h : r.IsProper nulls requests readings key)
    (known : ∀ now ∈ readings, Instant.isUnknown now = false) :
    ∃ now ∈ readings, r.lastAccessed = some now := by
  obtain ⟨now, mem, hlast⟩ := h.accessed
  refine ⟨now, mem, hlast.trans ?_⟩
  unfold Instant.stored
  rw [known now mem]
  rfl

/-! ## What keeps rows proper -/

theorem touched (h : r.IsProper nulls requests readings key) (read : now ∈ readings) :
    ({ r with lastAccessed := Instant.stored now } : Row τ).IsProper nulls requests readings key :=
  ⟨h.named, h.encoded, h.solid, h.lasting, h.policy, h.updated, now, read, rfl⟩

theorem extended (h : r.IsProper nulls requests readings key) (read : now ∈ readings) {ttl : Int}
    (least : 1 ≤ ttl) {policy : Policy}
    (keeps : constrained (renewed r ttl policy now) = .ok kept) :
    kept.IsProper nulls requests readings key := by
  obtain ⟨known, rfl⟩ := constrained_eq_ok keeps
  refine ⟨h.named, h.encoded, h.solid, ?_, policy.word_cases, ⟨read, known⟩, now, read, rfl⟩
  rintro _ ⟨⟩
  exact ⟨ttl, least, rfl⟩

/-- A row that is written at the request of a caller, whose arguments were accepted. -/
theorem written {request : Request} (mem : request ∈ requests) {k : Key} {v : Value} {p : Json}
    (gives : request.Gives k.text v) {given : Value} {operation : String}
    (hkey : Arguments.key given operation = .ok k)
    (hpayload : Arguments.payload nulls k v operation = .ok p) {ttl : Option Int}
    (least : ∀ n ∈ ttl, 1 ≤ n) (read : now ∈ readings) {policy : Policy}
    (keeps : constrained (Operation.rowOf p ttl policy now) = .ok kept) :
    kept.IsProper nulls requests readings k.text := by
  obtain ⟨known, rfl⟩ := constrained_eq_ok keeps
  refine ⟨Arguments.key_limits hkey, ⟨request, mem, v, gives, p, ?_, rfl⟩, ?_, ?_,
    policy.word_cases, ⟨read, known⟩, now, read, rfl⟩
  · exact Payload.encode_key (Arguments.payload_encoded hpayload) none
  · rintro rfl heq
    exact Arguments.payload_ne_null hpayload (Cell.document.inj heq)
  · rintro n hn
    obtain ⟨seconds, hseconds, rfl⟩ := Option.map_eq_some_iff.1 hn
    exact ⟨seconds, least seconds hseconds, rfl⟩

end Row.IsProper

/-! ## What requests may attempt -/

variable [Instant τ] {c : Config τ}

/-- Does a transaction keep rows proper if it comes of a request and of the readings of the clock
among some deeds? -/
def Request.Permits (c : Config τ) (request : Request) (deeds : List (Deed τ))
    (a : Transaction τ) : Prop :=
  ∀ requests readings, request ∈ requests → (∀ now, .read now ∈ deeds → now ∈ readings) →
    a.Keeps (Row.IsProper c.allowNull requests readings)

theorem Request.Permits.mono {request : Request} {deeds deeds' : List (Deed τ)}
    {a : Transaction τ} (h : request.Permits c deeds a) (hsub : deeds ⊆ deeds') :
    request.Permits c deeds' a :=
  fun requests readings mem read => h requests readings mem fun now hnow => read now (hsub hnow)

/-- Whatever a call may attempt keeps rows proper, as long as the default lifetime is none or at
least a second. -/
theorem Call.Makes.permitted (least : ∀ n ∈ c.defaultTtl, 1 ≤ n) {call : Call}
    {deeds : List (Deed τ)} {a : Transaction τ} (h : call.Makes c deeds a) :
    (Request.errand (.call call)).Permits c deeds a := by
  intro requests readings mem hread
  cases h with
  | touch given fetched read live slides => exact fun row proper => proper.touched (hread _ read)
  | put given read =>
    obtain ⟨hkey, httl, -, hpayload⟩ := Arguments.written_ok given
    rintro key row hrow kept keeps
    obtain ⟨rfl, rfl⟩ := Prod.mk.inj (List.mem_singleton.1 hrow)
    exact .written mem ⟨Arguments.names_of_key hkey, rfl⟩ hkey hpayload
      (Arguments.ttlOr_least least httl) (hread _ read) keeps
  | putIfAbsent given read =>
    obtain ⟨hkey, httl, -, hpayload⟩ := Arguments.written_ok given
    intro kept keeps
    exact .written mem ⟨Arguments.names_of_key hkey, rfl⟩ hkey hpayload
      (Arguments.ttlOr_least least httl) (hread _ read) keeps
  | putAll given read =>
    -- Only a dictionary has entries; the request gives each of them.
    obtain ⟨httl, -, hentries⟩ := Arguments.writtenMany_ok given
    rintro key row hrow kept keeps
    obtain ⟨e, he, heq⟩ := List.mem_map.1 hrow
    obtain ⟨rfl, rfl⟩ := Prod.mk.inj heq
    rcases hentries with hnone | ⟨pairs, rfl, hbatch⟩
    · rw [hnone] at he
      cases he
    · obtain ⟨pair, hpair, hvalue, hkey, hpayload⟩ := Arguments.mem_entriesOf hbatch he
      exact .written mem ⟨pairs, rfl, pair, hpair, Arguments.names_of_key hkey, hvalue⟩ hkey
        hpayload (Arguments.ttlOr_least least httl) (hread _ read) keeps
  | refreshTtl given read =>
    exact fun row proper kept keeps =>
      proper.extended (hread _ read) (Arguments.renewal_least given) keeps
  | _ => trivial

theorem Operation.Probes.permitted {deeds : List (Deed τ)} {a : Transaction τ}
    (h : Probes deeds a) : Request.checkHealth.Permits c deeds a := by
  intro requests readings mem hread
  cases h with
  | write read =>
    rintro key row hrow kept keeps
    obtain ⟨rfl, rfl⟩ := Prod.mk.inj (List.mem_singleton.1 hrow)
    refine .written mem ⟨rfl, rfl⟩ (k := .plain probeKey) (key_probe "put") rfl ?_ (hread _ read)
      keeps
    rintro _ ⟨⟩
    decide
  | _ => trivial

end ExpiringStore
