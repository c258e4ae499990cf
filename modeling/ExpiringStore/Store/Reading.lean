import ExpiringStore.Store.Lifecycle
import ExpiringStore.Store.Arguments
import ExpiringStore.Codec.Lookup

/-!
# Reads

Reads find what is live.  A single read removes the entry it finds expired and
moves the lifetime of a sliding entry forward; neither of these may spoil the
read, so their complaints are only logged.
-/

namespace ExpiringStore.Operation

variable {τ : Type} [Instant τ] [Delay τ]

/-- The counted result of a lookup goes into the log as well. -/
def logLookup (operation : String) (key : Key) (hit : Bool) (extra : List (String × Value) := []) :
    Operation τ Unit :=
  log (Log.operation operation key.toValue extra (some (.bool hit)))

/-- Says that a stored policy is no policy, if it is none. -/
def reportPolicy (key : Value) (stored : String) : Operation τ Unit :=
  if (Policy.ofStored stored).word == stored then pure ()
  else log ⟨.warning, "Invalid TTL policy, defaulting to ABSOLUTE",
    [("key", key), ("ttl_policy", .str stored)]⟩

/-- Runs a step whose complaints are only logged; none is the answer then. -/
def bestEffort {α : Type} (event : String) (key : Key) (step : Operation τ α) :
    Operation τ (Option α) :=
  tryCatch (some <$> step) fun f =>
    match f with
    | .complaint c => do
      log ⟨.warning, event, [("key", key.toValue), ("error", .str c.text)]⟩
      return none
    | f => throw f

/-- Removes the entry of a key if it is still expired. -/
def removeExpiredKey (c : Config τ) (key : Key) (now : τ) : Operation τ Unit := do
  let removed ← bestEffort "Failed to remove expired entry" key
    (transact c "expire" (.removeExpiredKey key.text now) (some key))
  if removed == some true then bookkeep .forgetSize

/-- Moves the lifetime of a sliding entry forward. -/
def touch (c : Config τ) (key : Key) (now : τ) : Operation τ Unit :=
  discard (bestEffort "Sliding TTL refresh failed" key
    (transact c "refresh" (.touch key.text now) (some key)))

/-- Looks up a key. -/
def get (c : Config τ) (key : Value) (refresh : Bool := true) (target : Option Target := none) :
    Operation τ Lookup := do
  let key ← ofExcept (Arguments.key key "get")
  startup c
  match ← transact c "get" (.fetch key.text) (some key) with
  | none =>
    bookkeep (.record .misses 1)
    logLookup "get" key false
    return .miss
  | some row =>
    let now ← readClock
    reportPolicy key.toValue row.policy
    if row.isExpired now then
      removeExpiredKey c key now
      bookkeep (.record .misses 1)
      logLookup "get" key false [("expired", .bool true)]
      return .miss
    else
      if refresh && Policy.ofStored row.policy == .sliding && row.ttl.isSome then
        touch c key now
      let value ← ofExcept (Payload.decode row.payload.value target (some key))
      bookkeep (.record .hits 1)
      logLookup "get" key true
      return .ofDecoded value

def containsKey (c : Config τ) (key : Value) : Operation τ Bool := do
  let key ← ofExcept (Arguments.key key "contains_key")
  startup c
  let now ← readClock
  transact c "contains_key" (.isLive key.text now) (some key)

/-- The decoded payloads of the rows that have not expired. -/
def decodeLive (target : Option Target) (now : τ) :
    List (String × Row τ) → Operation τ (List (String × Value))
  | [] => return []
  | (key, row) :: rest => do
    reportPolicy (.str key) row.policy
    if row.isExpired now then decodeLive target now rest
    else
      let value ← ofExcept (Payload.decode row.payload.value target (some (.plain key)))
      let found ← decodeLive target now rest
      return (key, value) :: found

/-- Looks up many keys at once: the found ones with their values, in the order
in which they were asked for. -/
def getAll (c : Config τ) (keys : Value) (target : Option Target := none) :
    Operation τ (List (Key × Value)) := do
  let keys ← ofExcept (Arguments.keys keys "get_all")
  if keys.isEmpty then return []
  startup c
  let rows ← transact c "get_all" (.fetchMany (keys.map (·.text)))
  let now ← readClock
  let found ← decodeLive target now rows
  if found.length != 0 then bookkeep (.record .hits found.length)
  if found.length != keys.length then
    bookkeep (.record .misses ((keys.length : Int) - found.length))
  log ⟨.debug, "Batch get", [("requested", .int keys.length), ("found", .int found.length)]⟩
  return keys.filterMap fun k => (found.lookup k.text).map (k, ·)

/-- The live keys that a pattern describes, in order. -/
def getKeys (c : Config τ) (pattern : Value) : Operation τ (List String) := do
  let pattern ← ofExcept (Arguments.pattern pattern "get_keys")
  startup c
  let now ← readClock
  transact c "get_keys" (.liveKeys (likeOfGlob pattern) now)

def getAllKeys (c : Config τ) : Operation τ (List String) := getKeys c (.str "*")

/-- The row of a key if its entry is live. -/
def fetchLive (c : Config τ) (key : Key) (operation : String) : Operation τ (Option (Row τ)) := do
  match ← transact c operation (.fetch key.text) (some key) with
  | none => return none
  | some row =>
    reportPolicy key.toValue row.policy
    let now ← readClock
    return if row.isExpired now then none else some row

/-- The time until a live entry expires; none if it is permanent. -/
def getRemainingTtl (c : Config τ) (key : Value) : Operation τ (Option Duration) := do
  let key ← ofExcept (Arguments.key key "get_remaining_ttl")
  startup c
  match ← fetchLive c key "get_remaining_ttl" with
  | none => return none
  | some row =>
    let now ← readClock
    ofExcept ((row.lifetime.remainingDuration now).mapError .duration)

def getTtlPolicy (c : Config τ) (key : Value) : Operation τ (Option Policy) := do
  let key ← ofExcept (Arguments.key key "get_ttl_policy")
  startup c
  match ← fetchLive c key "get_ttl_policy" with
  | none => return none
  | some row =>
    reportPolicy key.toValue row.policy
    return some (Policy.ofStored row.policy)

/-- The number of live entries.  A counted size is good for a while, unless an
operation of this store has changed the table since. -/
def size (c : Config τ) : Operation τ Nat := do
  let now ← readClock
  let memo ← perform .recallSize
  match memo.counted with
  | some (count, at') =>
    if Instant.before (Instant.minus now at') c.sizeWindow then
      log ⟨.debug, "Returning cached size", [("size", .int count)]⟩
      return count
    else recount now
  | none => recount now
where
  recount (now : τ) : Operation τ Nat := do
    startup c
    let memo ← perform .recallSize
    let count ← transact c "size" (.countLive now)
    bookkeep (.keepSize memo.generation count now)
    log ⟨.debug, "Cache size updated", [("size", .int count)]⟩
    return count

end ExpiringStore.Operation
