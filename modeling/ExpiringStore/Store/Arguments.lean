import ExpiringStore.Codec.Payload
import ExpiringStore.Lifetime.Policy
import ExpiringStore.Text.Characters

/-!
# Arguments

Arguments are checked before anything else happens.  Each check says what is
wrong, and for which operation and key.

    ttl v = .ok n   →   v is at least one second, and n is its whole seconds
-/

namespace ExpiringStore.Arguments

/-- A key: a text of one to 512 characters. -/
def key (v : Value) (operation : String) : Except Failure Key :=
  match Key.ofValue? v with
  | none => refuse .keyNotText operation
  | some k =>
    if k.text.isEmpty then refuse .keyNotText operation k
    else if Key.maxLength < k.text.length then
      refuse .keyTooLong operation (some (.plain (String.ofList (k.text.toList.take 64))))
    else .ok k

/-- Checks keys in order up to the first that is none. -/
def keysOf (operation : String) : List Value → Except Failure (List Key)
  | [] => .ok []
  | v :: rest =>
    match key v operation with
    | .error f => .error f
    | .ok k => (keysOf operation rest).map (k :: ·)

/-- A collection of keys, each taken once and in the order of their first places. -/
def keys (v : Value) (operation : String) : Except Failure (List Key) :=
  let distinct (items : List Value) := (keysOf operation items).map Key.distinct
  match v with
  | .dict entries => distinct (entries.map (·.1))
  | .str _ => refuse .keysAreOneText operation
  | .member _ => refuse .keysAreOneText operation
  | .bytes _ => refuse .keysAreOneText operation
  | v =>
    match v.items? with
    | some items => distinct items
    | none => .error (.notIterable v.typePath)

/-- A policy: one of the two, or its word in any case. -/
def policy (v : Value) (operation : String) (key : Option Key := none) : Except Failure Policy :=
  match v with
  | .none => refuse .policyMissing operation key
  | v =>
    match (v.text?.map capitalize).bind Policy.ofWord? with
    | some p => .ok p
    | none => refuse (.policyUnknown v) operation key

def seconds (v : Value) (operation : String) (key : Option Key) : Except Failure Float :=
  match v with
  | .duration d => .ok d.toSeconds
  | v =>
    match v.number? with
    | some n =>
      match n.toDouble? with
      | some x => .ok x
      | none => .error .tooLargeForDouble
    | none => refuse (.ttlNotTime v.typeName) operation key

/-- A lifetime: a positive amount of at least one second, cut to whole seconds. -/
def ttl (v : Value) (operation : String) (key : Option Key := none) : Except Failure Int := do
  let x ← seconds v operation key
  if x ≤ 0 then refuse .ttlNotPositive operation key
  else
    match Binary64.decode x with
    | .undefined => .error .undefinedNumber
    | .infinite _ => .error .infiniteNumber
    | .finite d =>
      if d.truncate < 1 then refuse .ttlUnderOneSecond operation key else .ok d.truncate

/-- A lifetime that may be left out. -/
def ttlOr (fallback : Option Int) (v : Value) (operation : String) (key : Option Key := none) :
    Except Failure (Option Int) :=
  match v with
  | .none => .ok fallback
  | v => (ttl v operation key).map some

def ttlGiven (v : Value) (operation : String) (key : Option Key) : Except Failure Int :=
  match v with
  | .none => refuse .ttlMissing operation key
  | v => ttl v operation key

/-- A pattern: a text that is not empty. -/
def pattern (v : Value) (operation : String) : Except Failure String :=
  match v.text? with
  | some s => if s.isEmpty then refuse .patternEmpty operation else .ok s
  | none => refuse .patternEmpty operation

/-- The payload of a value; nulls only if they are allowed. -/
def payload (allowNull : Bool) (k : Key) (v : Value) (operation : String) : Except Failure Json :=
  if Payload.isNull v && !allowNull then refuse .nullRefused operation (some k)
  else Payload.encode v (some k)

/-- A checked entry of a batch. -/
structure Entry where
  key : Key
  value : Value
  payload : Json

/-- Checks the entries of a batch in order up to the first that is none. -/
def entriesOf (allowNull : Bool) (operation : String) :
    List (Value × Value) → Except Failure (List Entry)
  | [] => .ok []
  | (kv, v) :: rest =>
    match key kv operation with
    | .error f => .error f
    | .ok k =>
      match payload allowNull k v operation with
      | .error f => .error f
      | .ok p => (entriesOf allowNull operation rest).map (⟨k, v, p⟩ :: ·)

def entries (allowNull : Bool) (v : Value) (operation : String) : Except Failure (List Entry) :=
  match v with
  | .dict pairs => entriesOf allowNull operation pairs
  | v => .error (.notMapping v.typePath)

end ExpiringStore.Arguments
