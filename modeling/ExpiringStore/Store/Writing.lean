import ExpiringStore.Store.Reading

/-!
# Writes

A write checks and encodes everything before the store is started, commits its
rows in one transaction, and only then counts them and tells the listeners.
-/

namespace ExpiringStore.Operation

variable {τ : Type} [Instant τ] [Delay τ]

def listenerEntry (l : ListenerId) (e : Event) (text : String) : Log.Entry :=
  ⟨.warning, "Cache event listener failed", [
    ("method", .str e.method),
    ("listener", .str l.type),
    ("key", keyField e.key?),
    ("error", .str text)]⟩

/-- Calls listeners in turn; one that fails is logged and the next is called. -/
def tell (e : Event) : List ListenerId → Operation τ Unit
  | [] => return ()
  | l :: rest => do
    match ← perform (.notify l e) with
    | none => pure ()
    | some text => log (listenerEntry l e text)
    tell e rest

/-- Tells the listeners registered at this moment. -/
def announce (e : Event) : Operation τ Unit := do
  tell e (← perform .listeners)

/-- Tells of several events in turn. -/
def announceAll : List Event → Operation τ Unit
  | [] => return ()
  | e :: rest => do
    announce e
    announceAll rest

def rowOf (payload : Json) (ttl : Option Int) (policy : Policy) (now : τ) : Row τ :=
  ⟨.document payload, now, ttl.map Instant.ofSeconds, policy.word, some now⟩

def ttlField (ttl : Option Int) : Value := (ttl.map .int).getD .none

/-- Inserts an entry or replaces it wholly. -/
def put (c : Config τ) (key value : Value) (ttl : Value := .none)
    (policy : Value := Policy.absolute.toValue) : Operation τ Unit := do
  let key ← ofExcept (Arguments.key key "put")
  let ttl ← ofExcept (Arguments.ttlOr c.defaultTtl ttl "put" (some key))
  let policy ← ofExcept (Arguments.policy policy "put" (some key))
  let payload ← ofExcept (Arguments.payload c.allowNull key value "put")
  startup c
  let now ← readClock
  transact c "put" (.write [(key.text, rowOf payload ttl policy now)]) (some key)
  bookkeep (.record .puts 1)
  bookkeep .forgetSize
  log (Log.operation "put" key.toValue [("ttl", ttlField ttl), ("policy", .str policy.word)])
  announce (.put key value)

/-- How often a conditional insertion is tried. -/
def insertionAttempts : Nat := 3

/-- Tries a conditional insertion so many times. -/
def insertIfAbsent (c : Config τ) (key : Key) (value : Value) (payload : Json) (ttl : Option Int)
    (policy : Policy) : Nat → Operation τ Lookup
  | 0 => throw (.complaint ⟨.unsettled, some "put_if_absent", some key⟩)
  | left + 1 => do
    let now ← readClock
    match ← transact c "put_if_absent"
        (.writeIfAbsent key.text (rowOf payload ttl policy now) now) (some key) with
    | .inserted =>
      bookkeep (.record .puts 1)
      bookkeep .forgetSize
      log (Log.operation "put_if_absent" key.toValue [("inserted", .bool true)])
      announce (.put key value)
      return .miss
    | .present row =>
      log (Log.operation "put_if_absent" key.toValue [("inserted", .bool false)])
      let found ← ofExcept (Payload.decode row.payload.value none (some key))
      return .ofDecoded found
    | .neither =>
      log ⟨.debug, "Conditional insert raced with a removal, retrying", [("key", key.toValue)]⟩
      insertIfAbsent c key value payload ttl policy left

/-- Inserts an entry unless there is a live one: a miss if it was inserted, and
what is there otherwise. -/
def putIfAbsent (c : Config τ) (key value : Value) (ttl : Value := .none)
    (policy : Value := Policy.absolute.toValue) : Operation τ Lookup := do
  let key ← ofExcept (Arguments.key key "put_if_absent")
  let ttl ← ofExcept (Arguments.ttlOr c.defaultTtl ttl "put_if_absent" (some key))
  let policy ← ofExcept (Arguments.policy policy "put_if_absent" (some key))
  let payload ← ofExcept (Arguments.payload c.allowNull key value "put_if_absent")
  startup c
  insertIfAbsent c key value payload ttl policy insertionAttempts

/-- Inserts or replaces many entries in one transaction, and answers how many. -/
def putAll (c : Config τ) (entries : Value) (ttl : Value := .none)
    (policy : Value := Policy.absolute.toValue) : Operation τ Nat := do
  let ttl ← ofExcept (Arguments.ttlOr c.defaultTtl ttl "put_all")
  let policy ← ofExcept (Arguments.policy policy "put_all")
  if !entries.isTruthy then return 0
  let batch ← ofExcept (Arguments.entries c.allowNull entries "put_all")
  startup c
  let now ← readClock
  transact c "put_all" (.write (batch.map fun e => (e.key.text, rowOf e.payload ttl policy now)))
  bookkeep (.record .puts batch.length)
  bookkeep .forgetSize
  log ⟨.debug, "Batch put", [("count", .int batch.length), ("ttl", ttlField ttl),
    ("policy", .str policy.word)]⟩
  announceAll (batch.map fun e => .put e.key e.value)
  return batch.length

/-- Gives a live entry a new lifetime from now on. -/
def refreshTtl (c : Config τ) (key ttl : Value) (policy : Value := Policy.absolute.toValue) :
    Operation τ Bool := do
  let key ← ofExcept (Arguments.key key "refresh_ttl")
  let ttl ← ofExcept (Arguments.ttlGiven ttl "refresh_ttl" (some key))
  let policy ← ofExcept (Arguments.policy policy "refresh_ttl" (some key))
  startup c
  let now ← readClock
  let updated ← transact c "refresh_ttl" (.extend key.text ttl policy now) (some key)
  if updated then
    bookkeep .forgetSize
    log ⟨.debug, "Refreshed TTL", [("key", key.toValue), ("ttl", .int ttl),
      ("policy", .str policy.word)]⟩
  else
    log ⟨.debug, "TTL refresh skipped, key not found", [("key", key.toValue)]⟩
  return updated

end ExpiringStore.Operation
