import ExpiringStore.Store.Program

/-!
# Attempts at a transaction

A transaction is tried until an attempt commits, a fault is met that another
attempt would meet again, or the attempts run out.  Complaints and faults from
elsewhere pass through as they are.

    outcomes  transient … transient, r     give r after as many pauses
    outcomes  transient … transient        as many as attempts give: unavailable
-/

namespace ExpiringStore

/-- What a store is set up with. -/
structure Config (τ : Type) where
  allowNull : Bool
  autoCreate : Bool
  backgroundCleanup : Bool
  defaultTtl : Option Int
  /-- For how long a counted size is good. -/
  sizeWindow : τ
  retry : RetryPolicy τ
  /-- Is the database the store's own, so that it goes down with the store? -/
  ownsDatabase : Bool

namespace Operation

variable {τ : Type} [Instant τ] [Delay τ]

def keyField (key : Option Key) : Value := (key.map Key.toValue).getD .none

def retryEntry (p : RetryPolicy τ) (operation : String) (key : Option Key) (attempt : Nat)
    (delay : τ) (f : Fault) : Log.Entry :=
  ⟨.warning, "Transient store failure, retrying", [
    ("operation", .str operation),
    ("key", keyField key),
    ("attempt", .int attempt),
    ("max_attempts", .int p.maxAttempts),
    ("delay", Instant.toValue delay),
    ("error", .str (String.ofList (f.text.toList.take 200)))]⟩

def lastComplaint (operation : String) (key : Option Key) (attempt : Nat) (f : Fault) : Failure :=
  .complaint ⟨if f.isTransient then .unavailable "Store unavailable" attempt
    else .operationFailed f.text, some operation, key⟩

/-- Takes the answer of an attempt: a fault of the storage layer or of the
operating system is met, all other failures pass through. -/
def settle {α : Type} (meet : Fault → Operation τ α) : Except Failure α → Operation τ α
  | .ok r => return r
  | .error (.fault f) => if f.kind.origin == .elsewhere then throw (.fault f) else meet f
  | .error failure => throw failure

/-- Waits before another attempt, and says so. -/
def waitFor (p : RetryPolicy τ) (operation : String) (key : Option Key) (attempt : Nat)
    (f : Fault) : Operation τ Unit :=
  match p.delay ((attempt : Int) - 1) with
  | .error reason => throw (.delay reason)
  | .ok delay => do
    log (retryEntry p operation key attempt delay f)
    perform (.pause delay)

/-- Tries a transaction from an attempt on, with so many more to come. -/
def transactFrom (p : RetryPolicy τ) (operation : String) (key : Option Key) (t : Transaction τ) :
    Nat → Nat → Operation τ t.Reply
  | attempt, 0 => do
    settle (fun f => throw (lastComplaint operation key attempt f)) (← perform (.attempt t))
  | attempt, left + 1 => do
    let again (f : Fault) : Operation τ t.Reply := do
      if p.shouldRetry f attempt then
        waitFor p operation key attempt f
        transactFrom p operation key t (attempt + 1) left
      else throw (lastComplaint operation key attempt f)
    settle again (← perform (.attempt t))

def transact (c : Config τ) (operation : String) (t : Transaction τ) (key : Option Key := none) :
    Operation τ t.Reply :=
  transactFrom c.retry operation key t 1 (c.retry.maxAttempts - 1).toNat

end Operation

end ExpiringStore
