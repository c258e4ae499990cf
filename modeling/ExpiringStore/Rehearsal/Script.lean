import ExpiringStore.Settings.Reading
import ExpiringStore.Store.Call
import ExpiringStore.Sweeper

/-!
# Scripts

A rehearsal runs stores against a script: which faults the coming transactions
meet, what others do to the table in between, and what the listeners do.
-/

namespace ExpiringStore.Rehearsal

/-! ## Faults by name -/

/-- The kinds of faults by the names that scripts use. -/
def faultKinds : List (String × Fault.Kind) := [
  ("operational", .operational),
  ("interface", .interface),
  ("disconnection", .disconnection),
  ("pool_timeout", .poolTimeout),
  ("integrity", .integrity),
  ("programming", .programming),
  ("data", .data),
  ("dbapi", .driver),
  ("sqlalchemy", .storage),
  ("oserror", .system),
  ("connection_reset", .connectionReset),
  ("timeout", .timeout),
  ("value_error", .value),
  ("runtime", .runtime)]

/-- What a name ends in if the fault comes with the loss of the connection. -/
def lossSuffix : String := "_invalidated"

/-- The name of the kind of fault, without the news of a lost connection. -/
def kindPart (name : String) : String :=
  if name.endsWith lossSuffix then (name.dropEnd lossSuffix.length).toString else name

def failureNamed? (name : String) : Option Failure :=
  let text := "injected " ++ name
  match name with
  | "cache" => some (.complaint ⟨.other .general text, none, none⟩)
  | "validation" => some (.complaint ⟨.other .validation text, none, none⟩)
  | "long" => some (.fault ⟨.operational, String.ofList (List.replicate 300 'x'), false⟩)
  | name =>
    let part := kindPart name
    (faultKinds.lookup part).map fun kind => .fault ⟨kind, text, part != name⟩

/-! ## Transactions -/

/-- A row that others write. -/
structure Seed where
  key : String
  payload : Cell
  /-- The clock reading of the moment unless given. -/
  updatedAt : Option Number
  ttl : Value
  policy : Option String
  /-- The clock reading of the moment unless given; it may be missing from the row. -/
  lastAccessed : Option (Option Number)
  deriving Inhabited

/-- What happens while a transaction is under way. -/
inductive Act where
  | write (seed : Seed)
  | erase (key : String)
  /-- An operation of a store that makes it forget its counted size. -/
  | forgetSize (store : String)
  | advance (length : Number)

/-- What a transaction meets. -/
inductive Encounter where
  | nothing
  | failure (f : Failure)
  | hanging
  | slowness
  /-- Acts before and after the first statement, a failure after them, and a
  failure of the commit. -/
  | company (before after : List Act) (raised refusal : Option Failure)

/-! ## Listeners -/

inductive ListenerKind where
  | recording
  | async
  | silent
  | putOnly
  deriving DecidableEq, Repr, Inhabited

def ListenerKind.type : ListenerKind → String
  | .recording => "RecordingListener"
  | .async => "AsyncListener"
  | .silent => "SilentListener"
  | .putOnly => "PartialListener"

/-- What a listener does when it is called. -/
structure ListenerScript where
  kind : ListenerKind
  /-- The methods that fail. -/
  failing : List String := []
  removes : List String := []
  adds : List String := []
  /-- The store on which it acts. -/
  store : String := "a"
  /-- What is put before the key of the entry that it writes for a removed one. -/
  echo : Option String := none
  deriving Inhabited

/-! ## Stores -/

/-- Where the table of a store lives. -/
inductive Home where
  | memory
  /-- One file for all stores that live there. -/
  | commonFile
  | url (s : String)
  deriving Inhabited

def Home.toUrl : Home → String
  | .memory => "sqlite+aiosqlite:///:memory:"
  | .commonFile => "sqlite+aiosqlite:///common.db"
  | .url s => s

/-- How a store is set up. -/
structure StoreScript where
  home : Home := .memory
  arguments : List (String × Value) := []
  listeners : List (Option String) := []
  /-- The name of the database if it is shared. -/
  database : Option String := none
  deriving Inhabited

end ExpiringStore.Rehearsal
