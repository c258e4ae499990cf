import ExpiringStore.Store.Removal

/-!
# Health

A store is healthy if its database answers and an entry can be written, read
back and removed.  Complaints of these checks are logged and count as a no.
-/

namespace ExpiringStore.Operation

variable {τ : Type} [Instant τ] [Delay τ]

/-- The key of the entry that checks write. -/
def probeKey : String := "_tablecache_health_check"

/-- A check whose complaints count as a no. -/
def checked (event : String) (check : Operation τ Bool) : Operation τ Bool :=
  tryCatch check fun f =>
    match f with
    | .complaint c => do
      log ⟨.warning, event, [("error", .str c.text)]⟩
      return false
    | f => throw f

def checkDatabase (c : Config τ) : Operation τ Bool :=
  checked "Database health check failed" (ping c)

/-- Writes, reads back and removes an entry. -/
def checkCache (c : Config τ) : Operation τ Bool :=
  checked "Cache health check failed" do
    put c (.str probeKey) (.str "ok") (.int 10)
    let found ← get c (.str probeKey) false
    discard (evict c (.str probeKey))
    return found.getD.same (.str "ok")

/-- What the checks of a store found. -/
structure Checks where
  database : Bool
  cache : Bool
  /-- The number of live entries, counted if the checks of the entries passed. -/
  size : Option Nat

def checkHealth (c : Config τ) : Operation τ Checks := do
  startup c
  let database ← checkDatabase c
  let cache ← checkCache c
  if cache then
    let n ← size c
    return ⟨database, cache, some n⟩
  else return ⟨database, cache, none⟩

end ExpiringStore.Operation
