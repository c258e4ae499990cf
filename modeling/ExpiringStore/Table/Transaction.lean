import ExpiringStore.Table.Basic
import ExpiringStore.Pattern.Like
import ExpiringStore.Failure

/-!
# Transactions

The store works on the table in transactions, each of which takes effect as a
whole or not at all.  Every transaction is one statement except the conditional
insertion, which asks for the live row after it could not insert; between the
two statements the table may be changed by others.

    run t between table = .ok (reply, table')      the transaction committed
    run t between table = .error f                 nothing was written
-/

namespace ExpiringStore

/-- The transactions that a store makes. -/
inductive Transaction (τ : Type) where
  /-- Answers if the table's database does. -/
  | probe
  | fetch (key : String)
  | fetchMany (keys : List String)
  | isLive (key : String) (now : τ)
  | liveKeys (pattern : String) (now : τ)
  | countLive (now : τ)
  | write (rows : List (String × Row τ))
  /-- Writes a row unless a row of its key is there that has not expired. -/
  | writeIfAbsent (key : String) (row : Row τ) (now : τ)
  | touch (key : String) (now : τ)
  | extend (key : String) (ttl : Int) (policy : Policy) (now : τ)
  | remove (key : String)
  | removeExpiredKey (key : String) (now : τ)
  | removeMany (keys : List String)
  | removeMatching (pattern : String)
  | removeEvery
  | removeExpired (now : τ)

inductive Insertion (τ : Type) where
  | inserted
  | present (row : Row τ)
  | neither

namespace Transaction

variable {τ : Type}

abbrev Reply : Transaction τ → Type
  | .probe => Unit
  | .fetch _ => Option (Row τ)
  | .fetchMany _ => List (String × Row τ)
  | .isLive _ _ => Bool
  | .liveKeys _ _ => List String
  | .countLive _ => Nat
  | .write _ => Unit
  | .writeIfAbsent _ _ _ => Insertion τ
  | .touch _ _ => Unit
  | .extend _ _ _ _ => Bool
  | .remove _ => Bool
  | .removeExpiredKey _ _ => Bool
  | .removeMany _ => List String
  | .removeMatching _ => List String
  | .removeEvery => Nat
  | .removeExpired _ => Nat

def payloads : Transaction τ → List Cell
  | .write rows => rows.map (·.2.payload)
  | .writeIfAbsent _ row _ => [row.payload]
  | _ => []

/-- Can all payloads be written as text?  A session asks before it sends a
statement, whatever the table. -/
def isWritable (a : Transaction τ) : Bool :=
  a.payloads.all fun
    | .document j => j.isWritable
    | _ => true

variable [Instant τ]

/-! ## Constraints of the table -/

def missingValue : Failure := .fault ⟨.integrity, Fault.engineText, false⟩

/-- The failure of a payload that cannot be written as text. -/
def notWritten : Failure := .fault ⟨.storage, Fault.engineText, false⟩

def patternTooLong : Failure := .fault ⟨.operational, Fault.engineText, false⟩

/-- A row as the table keeps it, if its columns allow it. -/
def constrained (r : Row τ) : Except Failure (Row τ) :=
  if !r.ttl.all Instant.fits then .error .integerTooLarge
  else if Instant.isUnknown r.updatedAt then .error missingValue
  else .ok { r with lastAccessed := r.lastAccessed.bind Instant.stored }

def writeRows (t : Table τ) : List (String × Row τ) → Except Failure (Table τ)
  | [] => .ok t
  | (key, r) :: rest =>
    match constrained r with
    | .error f => .error f
    | .ok r => writeRows (t.insert key r) rest

/-- A row that is read with its payload. -/
def readable (r : Row τ) : Except Failure (Row τ) :=
  match r.payload.readError? with
  | some (text, reason) => .error (.unreadablePayload text reason)
  | none => .ok r

/-- Rows that are read with their payloads. -/
def allReadable : List (String × Row τ) → Except Failure (List (String × Row τ))
  | [] => .ok []
  | (key, r) :: rest =>
    match readable r with
    | .error f => .error f
    | .ok r => (allReadable rest).map ((key, r) :: ·)

/-! ## Statements -/

/-- The rows of which a condition is true are removed; the others stay. -/
def removeWhere (t : Table τ) (condition : String → Row τ → Bool) : Table τ :=
  t.filter (fun k r => !condition k r)

def keysWhere (t : Table τ) (condition : String → Row τ → Bool) : List String :=
  (t.select condition).map (·.1)

/-- The row of a key with a new lifetime from `now` on. -/
def renewed (r : Row τ) (ttl : Int) (policy : Policy) (now : τ) : Row τ :=
  { r with
    ttl := some (Instant.ofSeconds ttl)
    policy := policy.word
    updatedAt := now
    lastAccessed := some now }

/-- Writes a row unless the table has one of the key that has not expired. -/
def insertUnlessLive (t : Table τ) (key : String) (row : Row τ) (now : τ) :
    Except Failure (Bool × Table τ) :=
  match constrained row with
  | .error f => .error f
  | .ok row =>
    match t.find? key with
    | none => .ok (true, t.insert key row)
    | some old =>
      if (Condition.expired old now).holds then .ok (true, t.insert key row) else .ok (false, t)

/-- The live row of a key, after the insertion did not take place. -/
def liveRow (t : Table τ) (key : String) (now : τ) : Except Failure (Insertion τ) :=
  match t.find? key with
  | none => .ok .neither
  | some r =>
    if (Condition.live r now).holds then (readable r).map .present else .ok .neither

/-- A transaction after its first statement: the table as that statement left
it, and the answer, which a second statement may still take from the table. -/
structure Begun (τ ρ : Type) where
  table : Table τ
  answer : Table τ → Except Failure ρ

def reading {ρ : Type} (t : Table τ) (r : Except Failure ρ) : Except Failure (Begun τ ρ) :=
  r.map fun r => ⟨t, fun _ => .ok r⟩

def changing {ρ : Type} (r : ρ) (t : Table τ) : Except Failure (Begun τ ρ) :=
  .ok ⟨t, fun _ => .ok r⟩

/-- Removes the rows of which a condition is true, and answers something about their keys. -/
def removing {ρ : Type} (t : Table τ) (condition : String → Row τ → Bool)
    (answer : List String → ρ) : Except Failure (Begun τ ρ) :=
  changing (answer (keysWhere t condition)) (removeWhere t condition)

/-- A pattern that can be matched against every key of the table. -/
def matchable (t : Table τ) (pattern : String) : Except Failure Unit :=
  if (t.select fun k _ => Like.overtaxes pattern k).isEmpty then .ok () else .error patternTooLong

def firstOn (t : Table τ) : (a : Transaction τ) → Except Failure (Begun τ a.Reply)
  | .probe => reading t (.ok ())
  | .fetch key => reading t <|
    match t.find? key with
    | none => .ok none
    | some r => (readable r).map some
  | .fetchMany keys => reading t (allReadable (t.select fun k _ => keys.contains k))
  | .isLive key now => reading t <| .ok <|
    match t.find? key with
    | none => false
    | some r => (Condition.live r now).holds
  | .liveKeys pattern now => reading t <| (matchable t pattern).map fun _ =>
    keysWhere t fun k r => Like.selects pattern k && (Condition.live r now).holds
  | .countLive now => reading t <| .ok <|
    (t.select fun _ r => (Condition.live r now).holds).length
  | .write rows =>
    match writeRows t rows with
    | .error f => .error f
    | .ok t => changing () t
  | .writeIfAbsent key row now =>
    match insertUnlessLive t key row now with
    | .error f => .error f
    | .ok (true, t) => changing .inserted t
    | .ok (false, t) => .ok ⟨t, fun t => liveRow t key now⟩
  | .touch key now => changing () <|
    t.map fun k r => if k == key then { r with lastAccessed := Instant.stored now } else r
  | .extend key ttl policy now =>
    if !fitsWord ttl then .error .integerTooLarge
    else
      match t.find? key with
      | none => changing false t
      | some r =>
        if !(Condition.live r now).holds then changing false t
        else
          match constrained (renewed r ttl policy now) with
          | .error f => .error f
          | .ok r => changing true (t.insert key r)
  | .remove key => changing (t.find? key).isSome (t.erase key)
  | .removeExpiredKey key now =>
    removing t (fun k r => k == key && (Condition.expired r now).holds) (!·.isEmpty)
  | .removeMany keys => removing t (fun k _ => keys.contains k) id
  | .removeMatching pattern =>
    match matchable t pattern with
    | .error f => .error f
    | .ok _ => removing t (fun k _ => Like.selects pattern k) id
  | .removeEvery => changing t.size Table.empty
  | .removeExpired now => removing t (fun _ r => (Condition.expired r now).holds) List.length

/-- Runs a transaction.  `between` is what happens to the table after the first
statement and before the commit. -/
def run (between : Table τ → Except Failure (Table τ)) (t : Table τ) (a : Transaction τ) :
    Except Failure (a.Reply × Table τ) := do
  let begun ← firstOn t a
  let t ← between begun.table
  let r ← begun.answer t
  return (r, t)

end Transaction

end ExpiringStore
