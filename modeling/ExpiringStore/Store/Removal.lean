import ExpiringStore.Store.Writing

/-!
# Removals

Entries are removed on request, one, many, by pattern or all of them, and then
count as evicted; expired entries are cleaned up without counting.
-/

namespace ExpiringStore.Operation

variable {τ : Type} [Instant τ] [Delay τ]

/-- Removes an entry; was there one? -/
def evict (c : Config τ) (key : Value) : Operation τ Bool := do
  let key ← ofExcept (Arguments.key key "evict")
  startup c
  let removed ← transact c "evict" (.remove key.text) (some key)
  log (Log.operation "evict" key.toValue [("deleted", .bool removed)])
  if removed then
    bookkeep (.record .evictions 1)
    bookkeep .forgetSize
    announce (.evict key)
  return removed

/-- Counts removed entries and tells the listeners. -/
def afterRemoval (keys : List String) : Operation τ Unit :=
  if keys.isEmpty then return ()
  else do
    bookkeep (.record .evictions keys.length)
    bookkeep .forgetSize
    announceAll (keys.map fun k => .evict (.plain k))

/-- Removes many entries at once, and answers how many there were. -/
def evictAll (c : Config τ) (keys : Value) : Operation τ Nat := do
  let keys ← ofExcept (Arguments.keys keys "evict_all")
  if keys.isEmpty then return 0
  startup c
  let removed ← transact c "evict_all" (.removeMany (keys.map (·.text)))
  afterRemoval removed
  return removed.length

/-- Removes every entry, live or expired, that a pattern describes. -/
def evictByPattern (c : Config τ) (pattern : Value) : Operation τ Nat := do
  let text ← ofExcept (Arguments.pattern pattern "evict_by_pattern")
  startup c
  let removed ← transact c "evict_by_pattern" (.removeMatching (likeOfGlob text))
  if !removed.isEmpty then
    log ⟨.debug, "Evicted entries by pattern",
      [("pattern", pattern), ("count", .int removed.length)]⟩
  afterRemoval removed
  return removed.length

def clear (c : Config τ) : Operation τ Nat := do
  startup c
  let removed ← transact c "clear" .removeEvery
  if removed != 0 then bookkeep (.record .evictions removed)
  bookkeep .forgetSize
  log ⟨.info, "Cache cleared", [("deleted", .int removed)]⟩
  announce .clear
  return removed

/-- Removes every expired entry, and answers how many there were. -/
def cleanupExpired (c : Config τ) : Operation τ Nat := do
  startup c
  let now ← readClock
  let removed ← transact c "cleanup_expired" (.removeExpired now)
  if removed > 0 then
    bookkeep .forgetSize
    log ⟨.info, "Cleaned up expired cache entries", [("count", .int removed)]⟩
  else
    log ⟨.debug, "No expired cache entries found during cleanup", []⟩
  return removed

end ExpiringStore.Operation
