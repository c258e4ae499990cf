import ExpiringStore.Log.Entry

/-!
# Sweepers

A sweeper runs a loop that waits for an interval to pass or for a signal,
sweeps when the interval has passed, and ends on the signal.  A stop gives the
signal, waits for the loop to end, and cancels it if that takes too long.

The steps below are indivisible.  Several loops may be alive as far as the type
is concerned; that never more than one is, is for the order of the steps to
show.

    expire s i sweep     the interval of loop i passes, and its sweep begins
    finish s i ok        the sweep of loop i ends
    signal s             everything that waits for the signal ends
    cancel s i           loop i ends where it is
-/

namespace ExpiringStore

inductive Loop (ρ : Type) where
  /-- Waits for the interval to pass or for the signal of this number. -/
  | waiting (signal : Nat)
  /-- Sweeps, with this much of the sweep left. -/
  | sweeping (rest : ρ)

/-- A sweeper with the loops that are alive. -/
structure Sweeper (ρ : Type) where
  interval : Number
  shutdownTimeout : Number
  running : Bool := false
  /-- The loops that are alive, by number. -/
  loops : List (Nat × Loop ρ) := []
  /-- The loop that a stop waits for; it may have ended. -/
  own : Option Nat := none
  /-- The number of starts so far, which numbers loops and signals. -/
  starts : Nat := 0
  /-- The number of sweeps that were completed. -/
  sweeps : Nat := 0

namespace Sweeper

variable {ρ : Type}

def start (s : Sweeper ρ) : Sweeper ρ :=
  if s.running then s
  else
    let n := s.starts + 1
    { s with
      running := true
      loops := s.loops ++ [(n, .waiting n)]
      own := some n
      starts := n }

def loop? (s : Sweeper ρ) (i : Nat) : Option (Loop ρ) := s.loops.lookup i

/-- The loop that a stop waits for, if it is alive. -/
def ownLoop? (s : Sweeper ρ) : Option (Nat × Loop ρ) := do
  let i ← s.own
  let l ← s.loop? i
  some (i, l)

def setLoop (s : Sweeper ρ) (i : Nat) (l : Loop ρ) : Sweeper ρ :=
  { s with loops := s.loops.map fun p => if p.1 == i then (i, l) else p }

/-- Ends a loop. -/
def cancel (s : Sweeper ρ) (i : Nat) : Sweeper ρ :=
  { s with loops := s.loops.filter (·.1 != i) }

/-- The interval of a waiting loop passes and a sweep begins. -/
def expire (s : Sweeper ρ) (i : Nat) (sweep : ρ) : Sweeper ρ :=
  match s.loop? i with
  | some (.waiting _) => s.setLoop i (.sweeping sweep)
  | _ => s

def count (s : Sweeper ρ) (completed : Bool) : Sweeper ρ :=
  if completed then { s with sweeps := s.sweeps + 1 } else s

/-- A sweep ends; its loop goes on while the sweeper is running. -/
def finish (s : Sweeper ρ) (i : Nat) (completed : Bool) : Sweeper ρ :=
  match s.loop? i with
  | some (.sweeping _) =>
    let s := s.count completed
    if s.running then s.setLoop i (.waiting s.starts) else s.cancel i
  | _ => s

/-- A stop begins: the sweeper runs no more, and loops that wait for its signal end. -/
def signal (s : Sweeper ρ) : Sweeper ρ :=
  let waits : Loop ρ → Bool
    | .waiting n => n == s.starts
    | .sweeping _ => false
  { s with running := false, own := none, loops := s.loops.filter fun p => !waits p.2 }

/-- Is there nothing to stop? -/
def isIdle (s : Sweeper ρ) : Bool := !s.running && s.own.isNone

/-! ## Entries in the log -/

def startedEntry (s : Sweeper ρ) : Log.Entry :=
  ⟨.info, "Expiration sweeper started", [("interval", .ofNumber s.interval)]⟩

/-- The entry of a stop that found no loop alive. -/
def endedEntry : Log.Entry := ⟨.info, "Expiration sweeper stopped", []⟩

def stoppedEntry (s : Sweeper ρ) : Log.Entry :=
  ⟨.info, "Expiration sweeper stopped", [("sweeps", .int s.sweeps)]⟩

def cancelledEntry (s : Sweeper ρ) : Log.Entry :=
  ⟨.warning, "Sweeper did not finish in time, cancelling",
    [("timeout", .ofNumber s.shutdownTimeout)]⟩

def failedEntry (text : String) : Log.Entry :=
  ⟨.warning, "Background cleanup failed", [("error", .str text)]⟩

end Sweeper

end ExpiringStore
