import ExpiringStore.Value.Numeral

/-!
# Faults

What can go wrong below the store: failures that the storage layer reports,
failures of the operating system, and failures that concern neither.  A fault
is worth another attempt if a fresh connection may not meet it again.

Some of what can be wrong with a URL is no complaint of the store either: a port
or an option that is no number, a driver that is not there, a name that means
something else than a driver.  It keeps an engine from being made.
-/

namespace ExpiringStore

inductive Fault.Kind where
  | operational
  | interface
  | disconnection
  | poolTimeout
  | integrity
  | programming
  | data
  | driver
  | storage
  | system
  | connectionReset
  | timeout
  | value
  | runtime
  deriving DecidableEq, Repr

inductive Fault.Origin where
  | storageLayer
  | operatingSystem
  | elsewhere
  deriving DecidableEq, Repr

/-- A fault with its wording.  A storage fault may say that the connection is lost. -/
structure Fault where
  kind : Fault.Kind
  text : String
  connectionLost : Bool := false
  deriving DecidableEq, Repr

namespace Fault

def engineText : String := "<store error>"

def Kind.origin : Kind → Origin
  | .system | .connectionReset | .timeout => .operatingSystem
  | .value | .runtime => .elsewhere
  | _ => .storageLayer

/-- Does the kind alone make a fault worth another attempt? -/
def Kind.isTransient : Kind → Bool
  | .operational | .interface | .disconnection | .poolTimeout => true
  | .system | .connectionReset | .timeout => true
  | _ => false

/-- Is the fault one of those that can carry the news of a lost connection? -/
def Kind.carriesConnection : Kind → Bool
  | .operational | .interface | .integrity | .programming | .data | .driver => true
  | _ => false

def isTransient (f : Fault) : Bool :=
  (f.connectionLost && f.kind.carriesConnection) || f.kind.isTransient

end Fault

/-! ## Engines -/

/-- Why there is no engine, or no connection of it. -/
inductive EngineFault where
  | numeral (reason : Numeral.Issue)
  | notTruth (given : String)
  /-- An option that is given more than once, for what reads its value. -/
  | severalValues (reader : String)
  | portMissing
  | portOutOfRange
  | severalDrivers
  | missingDriver (name : String)
  /-- A name that means something else than a driver. -/
  | notDriver (meaning : String)
  deriving DecidableEq, Repr

def EngineFault.text : EngineFault → String
  | .numeral reason => reason.text
  | .notTruth given => "String is not true/false: " ++ Quoted.text given
  | .severalValues reader => reader ++ ", not 'tuple'"
  | .portMissing => "Port argument must be an integer or None"
  | .portOutOfRange => "connect(): port must be 0-65535."
  | .severalDrivers => "too many values to unpack (expected 2)"
  | .missingDriver name => s!"No module named '{name}'"
  | .notDriver meaning => meaning ++ " has no attribute 'dialect'"

end ExpiringStore
