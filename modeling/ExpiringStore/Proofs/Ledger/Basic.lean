import ExpiringStore.Proofs.Lifetime.Exact
import ExpiringStore.Proofs.Call.Contract
import Mathlib.Logic.Function.Basic

/-!
# Ledgers

A ledger says what a store holds without saying how: for each key the entry that was last written,
and the instant from which its lifetime runs.  Expired entries need not be removed from it, since
they are no longer present.

    isPresent e now        e is permanent, or now ≤ anchor + ttl
    apply c now m call     the ledger after a call
    Answers c m now call   what a call answers that asks for what is present
    Tells c m script rs    what the calls of a script answer, one after the other
-/

namespace ExpiringStore

structure Ledger.Entry (τ : Type) where
  payload : Json
  /-- In seconds; a permanent entry has none. -/
  ttl : Option Int
  policy : Policy
  /-- The instant from which the lifetime runs. -/
  anchor : τ

/-- What is held under each key. -/
abbrev Ledger (τ : Type) := String → Option (Ledger.Entry τ)

namespace Ledger

variable {τ : Type} [ExactInstant τ]

def Entry.isPresent (e : Entry τ) (now : τ) : Bool :=
  e.ttl.all fun n => decide (now ≤ e.anchor + Instant.ofSeconds n)

/-- Do lookups move the lifetime of an entry forward? -/
def Entry.slides (e : Entry τ) : Bool := e.policy == .sliding && e.ttl.isSome

def empty : Ledger τ := fun _ => none

def present (m : Ledger τ) (now : τ) (key : String) : Option (Entry τ) :=
  (m key).filter (·.isPresent now)

/-! ## Changes -/

def set (m : Ledger τ) (key : String) (e : Entry τ) : Ledger τ := Function.update m key (some e)

def write (m : Ledger τ) (now : τ) (w : Written) : Ledger τ :=
  m.set w.key.text ⟨w.payload, w.ttl, w.policy, now⟩

/-- Writes the entries of a batch one after the other. -/
def writeMany (m : Ledger τ) (now : τ) (w : WrittenMany) : Ledger τ :=
  w.entries.foldl (fun m e => m.set e.key.text ⟨e.payload, w.ttl, w.policy, now⟩) m

def writeIfAbsent (m : Ledger τ) (now : τ) (w : Written) : Ledger τ :=
  if (m.present now w.key.text).isSome then m else m.write now w

/-- Gives a present entry a new lifetime. -/
def renew (m : Ledger τ) (now : τ) (w : Renewal) : Ledger τ :=
  match m.present now w.key.text with
  | some e => m.set w.key.text ⟨e.payload, some w.ttl, w.policy, now⟩
  | none => m

/-- Moves the lifetime of a present entry forward, if it slides. -/
def refresh (m : Ledger τ) (now : τ) (key : String) : Ledger τ :=
  match m.present now key with
  | some e => if e.slides then m.set key { e with anchor := now } else m
  | none => m

def without (m : Ledger τ) (gone : String → Bool) : Ledger τ :=
  fun key => if gone key then none else m key

/-- Nothing changes if arguments are refused. -/
def checked {α : Type} (m : Ledger τ) (x : Except Failure α) (change : α → Ledger τ) : Ledger τ :=
  match x with
  | .ok a => change a
  | .error _ => m

/-- The ledger after a call.  Sweeps and all reads but refreshing lookups leave it as it is. -/
def apply (c : Config τ) (now : τ) (m : Ledger τ) : Call → Ledger τ
  | .get key refresh _ => m.checked (Arguments.key key "get") fun k =>
    if refresh then m.refresh now k.text else m
  | .put key value ttl policy =>
    m.checked (Arguments.written c "put" key value ttl policy) (m.write now)
  | .putIfAbsent key value ttl policy =>
    m.checked (Arguments.written c "put_if_absent" key value ttl policy) (m.writeIfAbsent now)
  | .putAll entries ttl policy =>
    m.checked (Arguments.writtenMany c entries ttl policy) (m.writeMany now)
  | .refreshTtl key ttl policy => m.checked (Arguments.renewal key ttl policy) (m.renew now)
  | .evict key => m.checked (Arguments.key key "evict") fun k => m.without (· == k.text)
  | .evictAll keys => m.checked (Arguments.keys keys "evict_all") fun ks =>
    m.without (ks.map (·.text)).contains
  | .evictByPattern pattern => m.checked (Arguments.pattern pattern "evict_by_pattern") fun g =>
    m.without (Like.selects (likeOfGlob g))
  | .clear => empty
  | .containsKey _ | .getAll _ _ | .getKeys _ | .getAllKeys | .getRemainingTtl _ | .getTtlPolicy _
  | .size | .cleanupExpired => m

/-! ## Answers -/

/-- What is answered of the entry of a key, decoded in the shape of a target if there is one. -/
def lookUp (m : Ledger τ) (now : τ) (target : Option Target) (k : Key) : Except Failure Answer :=
  match m.present now k.text with
  | none => .ok (.lookup .miss)
  | some e => (Payload.decode (.ofJson e.payload) target (some k)).map (.lookup ∘ .ofDecoded)

/-- Of some keys, those that are present, in order, with the values of their entries. -/
def Finds (m : Ledger τ) (now : τ) (target : Option Target) (ks : List Key)
    (found : List (Key × Value)) : Prop :=
  found.map (·.1) = ks.filter (fun k => (m.present now k.text).isSome) ∧
    ∀ p ∈ found, ∃ e, m.present now p.1.text = some e ∧
      Payload.decode (.ofJson e.payload) target (some p.1) = .ok p.2

/-- One of some keys has a present entry that does not have the shape of the target. -/
def Mismatches (m : Ledger τ) (now : τ) (target : Option Target) (ks : List Key) (f : Failure) :
    Prop :=
  target.isSome = true ∧ ∃ k ∈ ks, ∃ e, m.present now k.text = some e ∧
    Payload.decode (.ofJson e.payload) target (some (.plain k.text)) = .error f

/-- The present keys that a pattern describes, each once and in order. -/
def Lists (m : Ledger τ) (now : τ) (pattern : String) (ks : List String) : Prop :=
  ks.Pairwise (· < ·) ∧
    ∀ k, k ∈ ks ↔ (m.present now k).isSome = true ∧ Like.selects (likeOfGlob pattern) k = true

/-- What a call answers.  Of removals, sweeps and counts a ledger says nothing, since these may
concern entries that are not present. -/
def Answers (c : Config τ) (m : Ledger τ) (now : τ) (call : Call) (r : Except Failure Answer) :
    Prop :=
  match call with
  | .get key _ target => r = (Arguments.key key "get").bind (m.lookUp now target)
  | .containsKey key => r = (Arguments.key key "contains_key").map fun k =>
      .bool (m.present now k.text).isSome
  | .getAll keys target =>
    match Arguments.keys keys "get_all" with
    | .ok ks => (∃ found, r = .ok (.found found) ∧ m.Finds now target ks found) ∨
      ∃ f, r = .error f ∧ m.Mismatches now target ks f
    | .error f => r = .error f
  | .getKeys pattern =>
    match Arguments.pattern pattern "get_keys" with
    | .ok g => ∃ ks, r = .ok (.texts ks) ∧ m.Lists now g ks
    | .error f => r = .error f
  | .getAllKeys => ∃ ks, r = .ok (.texts ks) ∧ m.Lists now "*" ks
  | .getRemainingTtl key =>
    match Arguments.key key "get_remaining_ttl" with
    | .ok k => r = .ok .nothing ↔ ∀ e, m.present now k.text = some e → e.ttl = none
    | .error f => r = .error f
  | .getTtlPolicy key => r = (Arguments.key key "get_ttl_policy").map fun k =>
      .optional Policy.toValue ((m.present now k.text).map (·.policy))
  | .put key value ttl policy =>
    r = (Arguments.written c "put" key value ttl policy).map fun _ => .nothing
  | .putIfAbsent key value ttl policy =>
    r = (Arguments.written c "put_if_absent" key value ttl policy).bind fun w =>
      m.lookUp now none w.key
  | .putAll entries ttl policy => r = (Arguments.writtenMany c entries ttl policy).map fun w =>
      .count w.entries.length
  | .refreshTtl key ttl policy => r = (Arguments.renewal key ttl policy).map fun w =>
      .bool (m.present now w.key.text).isSome
  | .size | .evict _ | .evictAll _ | .evictByPattern _ | .clear | .cleanupExpired => True

/-- What the calls of a script answer, each at its reading of the clock. -/
def Tells (c : Config τ) : Ledger τ → List (τ × Call) → List (Except Failure Answer) → Prop
  | _, [], [] => True
  | m, (now, call) :: script, r :: rs =>
    m.Answers c now call r ∧ Tells c (m.apply c now call) script rs
  | _, _, _ => False

end Ledger

end ExpiringStore
