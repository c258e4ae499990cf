import ExpiringStore.Table.Transaction
import ExpiringStore.Gate
import ExpiringStore.Listeners
import ExpiringStore.Log.Entry
import ExpiringStore.Retry
import ExpiringStore.Statistics

/-!
# Effects

Everything that an operation of the store asks of its surroundings, one
indivisible step each: a clock reading, one attempt at a transaction, a pause,
a change of what the store remembers, a call of a listener.  Operations are
programs over these steps, so that several of them can be run one after the
other or interleaved at will.
-/

namespace ExpiringStore

/-- What happened to entries, as listeners hear of it. -/
inductive Event where
  | put (key : Key) (value : Value)
  | evict (key : Key)
  | clear
  deriving Inhabited

namespace Event

/-- The method of a listener that hears of the event. -/
def method : Event → String
  | .put _ _ => "on_put"
  | .evict _ => "on_evict"
  | .clear => "on_clear"

def key? : Event → Option Key
  | .put k _ => some k
  | .evict k => some k
  | .clear => none

/-- What the method is called with. -/
def arguments : Event → List Value
  | .put k v => [k.toValue, v]
  | .evict k => [k.toValue]
  | .clear => []

end Event

/-- The counted size and when it was counted, and how often the size has been
forgotten. -/
structure SizeMemo (τ : Type) where
  generation : Nat := 0
  counted : Option (Nat × τ) := none

/-- Changes of what a store remembers about itself. -/
inductive Bookkeeping (τ : Type) where
  | record (counter : Statistics.Counter) (n : Int)
  /-- Forgets the counted size. -/
  | forgetSize
  /-- Keeps a counted size, unless the size has been forgotten since. -/
  | keepSize (generation count : Nat) (now : τ)

/-- The gates of a store and of its database. -/
inductive GateName where
  | store
  | schema
  deriving DecidableEq, Repr

/-- What is asked of the database apart from transactions. -/
inductive EngineStep where
  /-- Opens the engine unless it is open, and answers whether it had to be opened. -/
  | start
  /-- Is the engine open? -/
  | isOpen
  | dialect
  /-- Is the table there? -/
  | hasTable
  /-- Makes the table and answers whether it was there. -/
  | makeTable
  /-- Closes all connections. -/
  | dispose
  /-- Lets the engine go. -/
  | release
  deriving DecidableEq, Repr

abbrev EngineStep.Reply : EngineStep → Type
  | .start => Except Failure Bool
  | .isOpen => Bool
  | .dialect => Option String
  | .hasTable => Except Failure Bool
  | .makeTable => Except Failure Bool
  | .dispose => Unit
  | .release => Unit

/-- What is asked of the store's own sweeper. -/
inductive SweeperStep where
  | start
  /-- Stops the sweeper, waiting for a sweep under way, and lets it go. -/
  | stop
  deriving DecidableEq, Repr

/-- One step of an operation. -/
inductive Effect (τ : Type) where
  | readClock
  | attempt (t : Transaction τ)
  | pause (length : τ)
  | log (entry : Log.Entry)
  | recallSize
  | bookkeep (b : Bookkeeping τ)
  | listeners
  /-- Calls a listener; the answer is the text of its failure, if it fails. -/
  | notify (listener : ListenerId) (event : Event)
  | gate (gate : GateName) (step : GateStep)
  | engine (step : EngineStep)
  | sweeper (step : SweeperStep)
  /-- Notes that the store has started, or that it has stopped. -/
  | noteRunning (running : Bool)

/-- What a step answers. -/
abbrev Effect.Reply {τ : Type} : Effect τ → Type
  | .readClock => Except Failure τ
  | .attempt t => Except Failure t.Reply
  | .pause _ => Unit
  | .log _ => Unit
  | .recallSize => SizeMemo τ
  | .bookkeep _ => Unit
  | .listeners => List ListenerId
  | .notify _ _ => Option String
  | .gate _ _ => Bool
  | .engine step => step.Reply
  | .sweeper _ => Unit
  | .noteRunning _ => Unit

end ExpiringStore
