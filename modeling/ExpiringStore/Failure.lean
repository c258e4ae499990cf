import ExpiringStore.Key
import ExpiringStore.Fault
import ExpiringStore.Json.Reader
import ExpiringStore.Retry

/-!
# Failures

A failure of an operation is either a complaint of the store, which names its
cause and, where they are known, the operation and the key, or something that
passes through the store unchanged.

    text of a complaint = its message, then (operation=…, key=…) as far as known
-/

namespace ExpiringStore

inductive Complaint.Kind where
  | general
  | validation
  | serialization
  | store
  | unavailable
  deriving DecidableEq, Repr

/-- Why a value has no stored form. -/
inductive Unencodable where
  | notText (octet position : Nat)
  | unknownType (name : String)
  | circular
  | tooDeep
  deriving DecidableEq, Repr

def Unencodable.text : Unencodable → String
  | .notText octet position =>
    "'utf-8' codec can't decode byte 0x" ++ String.ofList (Json.hexDigits octet 2) ++
      s!" in position {position}: invalid utf-8"
  | .unknownType name => s!"Unable to serialize unknown type: <class '{name}'>"
  | .circular => "Circular reference detected (id repeated)"
  | .tooDeep => "Maximum serialization depth exceeded"

inductive Complaint.Cause where
  | keyNotText
  | keyTooLong
  | keysAreOneText
  | ttlNotTime (type : String)
  | ttlNotPositive
  | ttlUnderOneSecond
  | ttlMissing
  | policyMissing
  | policyUnknown (given : Value)
  | patternEmpty
  | nullRefused
  | unencodable (type : String) (reason : Unencodable)
  | malformedPayload
  | typeMismatch (type : String) (errors : Nat)
  | notInitialized
  | unavailable (what : String) (attempts : Int)
  | operationFailed (fault : String)
  | unsettled
  | invalidUrl (reason : String)
  | unsupportedDialect (name : String)
  | engineRefused (reason : String)
  | existenceUnknown (fault : String)
  | schemaFailed (fault : String)
  /-- Any other complaint of a family. -/
  | other (kind : Complaint.Kind) (message : String)

namespace Complaint.Cause

/-- The family that a cause belongs to. -/
def kind : Complaint.Cause → Complaint.Kind
  | .keyNotText | .keyTooLong | .keysAreOneText | .ttlNotTime _ | .ttlNotPositive
  | .ttlUnderOneSecond | .ttlMissing | .policyMissing | .policyUnknown _ | .patternEmpty
  | .nullRefused => .validation
  | .unencodable _ _ | .malformedPayload | .typeMismatch _ _ => .serialization
  | .unavailable _ _ => .unavailable
  | .other k _ => k
  | _ => .store

def message : Complaint.Cause → String
  | .keyNotText => "Cache key must be a non-empty string"
  | .keyTooLong => s!"Cache key longer than {Key.maxLength} characters"
  | .keysAreOneText => "Expected a collection of keys, got a single string"
  | .ttlNotTime type => s!"TTL must be seconds or a timedelta, got {type}"
  | .ttlNotPositive => "TTL must be positive"
  | .ttlUnderOneSecond => "TTL must be at least one second"
  | .ttlMissing => "TTL cannot be None"
  | .policyMissing => "TTL policy cannot be None"
  | .policyUnknown given => "Unknown TTL policy: " ++ given.quoted
  | .patternEmpty => "Pattern cannot be empty"
  | .nullRefused => "Cache value cannot be None (allow_null_values=False)"
  | .unencodable type reason => s!"Cannot serialize value of type {type}: " ++ reason.text
  | .malformedPayload => "Malformed cache payload"
  | .typeMismatch type errors =>
    s!"Cached value is not a valid {type}: {errors} validation error(s)"
  | .notInitialized => "Database not initialized"
  | .unavailable what attempts => s!"{what} after {attempts} attempts"
  | .operationFailed fault => "Store operation failed: " ++ fault
  | .unsettled => "Conditional insert did not settle"
  | .invalidUrl reason => "Invalid database URL: " ++ reason
  | .unsupportedDialect name => "Unsupported database dialect: " ++ name
  | .engineRefused reason => "Cannot create engine: " ++ reason
  | .existenceUnknown fault => "Failed to check if table exists: " ++ fault
  | .schemaFailed fault => "Failed to initialize cache table: " ++ fault
  | .other _ message => message

/-- Why no engine could be made for a database, if that is the cause. -/
def refusal? : Complaint.Cause → Option String
  | .engineRefused reason => some reason
  | _ => none

end Complaint.Cause

/-- A cause with the operation and the key that it concerns. -/
structure Complaint where
  cause : Complaint.Cause
  operation : Option String := none
  key : Option Key := none

namespace Complaint

def kind (c : Complaint) : Kind := c.cause.kind

/-- What is known of the context: an operation that has a name, and the key. -/
def context (c : Complaint) : List String :=
  (match c.operation with
    | some o => if o.isEmpty then [] else ["operation=" ++ o]
    | none => []) ++
  (match c.key with
    | some k => ["key=" ++ k.quoted]
    | none => [])

/-- The message, followed by what is known of the context. -/
def text (c : Complaint) : String :=
  if c.context.isEmpty then c.cause.message
  else c.cause.message ++ " (" ++ String.intercalate ", " c.context ++ ")"

end Complaint

inductive Failure where
  | complaint (c : Complaint)
  | fault (f : Fault)
  | unreadablePayload (text : String) (reason : Json.ReadError)
  | integerTooLarge
  | notIterable (type : String)
  | notMapping (type : String)
  | tooLargeForDouble
  | undefinedNumber
  | infiniteNumber
  | duration (reason : Duration.Failure)
  | delay (reason : PowerFailure)
  | absentValue
  | engine (reason : EngineFault)
  | payloadNotText (type : String)
  /-- A method is called where there is no sweeper. -/
  | noSweeper (method : String)

namespace Failure

def text : Failure → String
  | .complaint c => c.text
  | .fault f => f.text
  | .unreadablePayload text reason => reason.message text
  | .integerTooLarge => "Python int too large to convert to SQLite INTEGER"
  | .notIterable type => s!"'{type}' object is not iterable"
  | .notMapping type => s!"'{type}' object has no attribute 'items'"
  | .tooLargeForDouble => "int too large to convert to float"
  | .undefinedNumber => Duration.Failure.undefined.text
  | .infiniteNumber => Duration.Failure.infinite.text
  | .duration reason => reason.text
  | .delay reason => reason.text
  | .absentValue => "'cache miss'"
  | .engine reason => reason.text
  | .payloadNotText type => s!"the JSON object must be str, bytes or bytearray, not {type}"
  | .noSweeper method => s!"'NoneType' object has no attribute '{method}'"

def complaint? : Failure → Option Complaint
  | .complaint c => some c
  | _ => none

end Failure

/-- A complaint about an operation and, where it is known, a key. -/
def refuse {α : Type} (cause : Complaint.Cause) (operation : String) (key : Option Key := none) :
    Except Failure α :=
  .error (.complaint ⟨cause, some operation, key⟩)

end ExpiringStore
