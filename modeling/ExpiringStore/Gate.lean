/-!
# One-shot gates

A gate stands before something that must be set up once.  The first caller sets
it up while the others wait; once it is set up the gate is open and nobody sets
it up again.  If setting up fails, that caller takes the failure and the gate
stays closed for the next one to try.
-/

namespace ExpiringStore

/-- What a caller does at a gate. -/
inductive GateStep where
  /-- Asks whether the gate is open. -/
  | look
  /-- Waits until no other caller is setting up. -/
  | lock
  /-- Lets the next caller in. -/
  | unlock
  /-- Opens the gate for good. -/
  | unbar
  /-- Closes the gate again. -/
  | bar
  deriving DecidableEq, Repr

/-- Passes a gate, setting up what it guards if nobody has. -/
def Gate.pass {m : Type → Type} {ε : Type} [Monad m] [MonadExceptOf ε m]
    (step : GateStep → m Bool) (setUp : m Unit) : m Unit := do
  if ← step .look then return ()
  discard (step .lock)
  if ← step .look then
    discard (step .unlock)
  else
    try setUp
    catch e =>
      discard (step .unlock)
      throw (e : ε)
    discard (step .unbar)
    discard (step .unlock)

namespace Gate

/-! ## Callers that take turns -/

/-- A gate, the number of times something was set up behind it, and how the
coming attempts end. -/
structure Trial where
  isOpen : Bool := false
  calls : Nat := 0
  /-- How many of the coming attempts fail; none means all of them. -/
  failing : Option Nat := some 0
  deriving Repr, Inhabited

/-- A computation of a caller that can fail with a text. -/
abbrev Caller (α : Type) := ExceptT String (StateM Trial) α

/-- The gate steps of callers that take turns: the lock is always free. -/
def Trial.step (s : GateStep) : Caller Bool := do
  match s with
  | .look => return (← getThe Trial).isOpen
  | .unbar => modifyThe Trial ({ · with isOpen := true })
  | .bar => modifyThe Trial ({ · with isOpen := false })
  | .lock | .unlock => pure ()
  return true

/-- Sets up, or fails with the number of the call. -/
def Trial.setUp : Caller Unit := do
  let t ← getThe Trial
  let calls := t.calls + 1
  match t.failing with
  | none =>
    set { t with calls }
    throw s!"boom {calls}"
  | some 0 => set { t with calls }
  | some (n + 1) =>
    set { t with calls, failing := some n }
    throw s!"boom {calls}"

/-- Some callers pass the gate, and what each of them met. -/
def Trial.round : Nat → Trial → List (Option String) × Trial
  | 0, t => ([], t)
  | callers + 1, t =>
    let (result, t) := (Gate.pass (ε := String) Trial.step Trial.setUp).run.run t
    let (results, t) := round callers t
    ((match result with | .ok _ => none | .error e => some e) :: results, t)

end Gate

end ExpiringStore
