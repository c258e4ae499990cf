import ExpiringStore.Settings.Basic
import ExpiringStore.Settings.EnvFile
import ExpiringStore.Codec.Scalar
import ExpiringStore.Text.Characters
import ExpiringStore.Files

/-!
# Reading settings

Settings come from arguments, from the environment and from an environment
file, in this order of precedence, and each field has its type and its limits.
All fields that do not fit are reported together, in the order of the fields.
The directory of an embedded database is made on the way.
-/

namespace ExpiringStore.Settings

/-- Why the value of a field does not fit. -/
inductive Issue.Reason where
  | mismatch (m : Mismatch)
  | atLeast (n : Int)
  | atMost (n : Int)
  | moreThan (n : Int)
  | notOneOf (words : List String)
  | unknownLevel (given : String)
  | embeddedNull
  deriving DecidableEq, Repr

/-- A field that does not fit. -/
structure Issue where
  field : String
  reason : Issue.Reason
  deriving DecidableEq, Repr

def Issue.Reason.describe : Issue.Reason → String × String
  | .mismatch .integerType => ("int_type", "Input should be a valid integer")
  | .mismatch .integerText =>
    ("int_parsing", "Input should be a valid integer, unable to parse string as an integer")
  | .mismatch .integerSize =>
    ("int_parsing_size", "Unable to parse input string as an integer, exceeded maximum size")
  | .mismatch .integerFraction =>
    ("int_from_float", "Input should be a valid integer, got a number with a fractional part")
  | .mismatch .notFinite => ("finite_number", "Input should be a finite number")
  | .mismatch .numberType => ("float_type", "Input should be a valid number")
  | .mismatch .numberText =>
    ("float_parsing", "Input should be a valid number, unable to parse string as a number")
  | .mismatch .truthType => ("bool_type", "Input should be a valid boolean")
  | .mismatch .truthText =>
    ("bool_parsing", "Input should be a valid boolean, unable to interpret input")
  | .mismatch .textType => ("string_type", "Input should be a valid string")
  | .mismatch .textOctets =>
    ("string_unicode",
      "Input should be a valid string, unable to parse raw data as a unicode string")
  | .mismatch .dateType => ("date_type", "Input should be a valid date")
  | .atLeast n => ("greater_than_equal", s!"Input should be greater than or equal to {n}")
  | .atMost n => ("less_than_equal", s!"Input should be less than or equal to {n}")
  | .moreThan n => ("greater_than", s!"Input should be greater than {n}")
  | .notOneOf words =>
    ("literal_error",
      "Input should be " ++ String.intercalate " or " (words.map fun w => s!"'{w}'"))
  | .unknownLevel given => ("value_error", "Value error, Unknown log level: " ++ given)
  | .embeddedNull => ("value_error", "Value error, embedded null byte")

/-! ## Fields -/

def truth (v : Value) : Except Issue.Reason Bool := (Scalar.truth? v).mapError .mismatch

def text (v : Value) : Except Issue.Reason String := (Scalar.string? v).mapError .mismatch

/-- A whole number within limits, the upper one checked first. -/
def integer (least most : Option Int) (v : Value) : Except Issue.Reason Int := do
  let n ← (Scalar.integer? v).mapError .mismatch
  if let some m := most then
    if m < n then throw (.atMost m)
  if let some m := least then
    if n < m then throw (.atLeast m)
  return n

/-- A double within limits; what is no number is beyond every limit. -/
def double (least most above : Option Int) (v : Value) : Except Issue.Reason Float := do
  let x ← (Scalar.double? v).mapError .mismatch
  if let some m := most then
    if !(Number.float x).le (.int m) then throw (.atMost m)
  if let some m := least then
    if !(Number.int m).le (.float x) then throw (.atLeast m)
  if let some m := above then
    if !(Number.int m).lt (.float x) then throw (.moreThan m)
  return x

/-- A value that may be missing. -/
def optional {α : Type} (read : Value → Except Issue.Reason α) (v : Value) :
    Except Issue.Reason (Option α) :=
  match v with
  | .none => .ok none
  | v => (read v).map some

def levels : List String := ["DEBUG", "INFO", "WARNING", "ERROR", "CRITICAL"]

def level (v : Value) : Except Issue.Reason String := do
  let s ← text v
  let capitals := capitalize s
  if levels.contains capitals then return capitals else throw (.unknownLevel s)

/-- One of some words. -/
def oneOf (words : List String) (v : Value) : Except Issue.Reason String :=
  match v with
  | .str s => if words.contains s then .ok s else .error (.notOneOf words)
  | _ => .error (.notOneOf words)

/-! ## Directories -/

/-- The file of an embedded database: what follows the first three slashes. -/
def filePart? (url : String) : Option String :=
  if url.startsWith "sqlite" && (url.splitOn ":///").length > 1 then
    match url.splitOn "///" with
    | _ :: rest =>
      let path := String.intercalate "///" rest
      if path.isEmpty || path == ":memory:" then none else some path
    | [] => none
  else none

/-- Does the path of a file lead through a name with a null character? -/
def leadsThroughNull (path : String) : Bool :=
  let names := (path.splitOn "/").filter fun name => !(name == "" || name == ".")
  names.dropLast.any (·.toList.contains '\x00')

def makeDirectory (files : Files) (path : String) : Except FileFailure Files :=
  match Files.names? path with
  | some names => files.makeDirectory names.dropLast
  | none => .ok files

/-- Makes the directory in which an embedded database lives. -/
def makeHome (files : Files) (url : String) : Except FileFailure Files :=
  match filePart? url with
  | some path => makeDirectory files path
  | none => .ok files

/-- Why a log file cannot be written. -/
inductive LogFileFailure where
  | directory (reason : FileFailure)
  | embeddedNull
  deriving DecidableEq, Repr

def LogFileFailure.text : LogFileFailure → String
  | .directory reason => reason.text
  | .embeddedNull => "embedded null byte"

/-- Makes the directory of the log file, if there is to be one. -/
def makeLogDirectory (files : Files) (s : Settings) : Except LogFileFailure Files :=
  let path := s.logFile.getD ""
  if path.isEmpty then .ok files
  else if leadsThroughNull path then .error .embeddedNull
  else
    match makeDirectory files path with
    | .error reason => .error (.directory reason)
    | .ok files => if path.toList.contains '\x00' then .error .embeddedNull else .ok files

/-! ## Sources -/

/-- Where the values of fields come from. -/
structure Sources where
  arguments : List (String × Value) := []
  environment : List (String × String) := []
  environmentFile : Option String := none

/-- What the names of environment variables begin with. -/
def variablePrefix : String := "tablecache_"

/-- The value that the text of a variable means: one word stands for a missing value. -/
def ofVariable (s : String) : Value := if s == "none" then .none else .str s

/-- The value of the last variable of a name in any case; the last one may have none. -/
def bound? (name : String) (pairs : List (String × Option String)) : Option Value :=
  (pairs.reverse.find? (smallLetters ·.1 == variablePrefix ++ name)).bind fun (_, text) =>
    text.map ofVariable

/-- The value given for a field: the first argument of its name in any case,
and else the variable. -/
def Sources.find? (s : Sources) (name : String) : Option Value :=
  let argument := (s.arguments.find? (smallLetters ·.1 == name)).map (·.2)
  let outer := s.environment.map fun (n, text) => (n, some text)
  let file := (s.environmentFile.map (EnvFile.parse fun n => s.environment.lookup n)).getD []
  argument.or ((bound? name outer).or (bound? name file))

/-! ## All fields together -/

/-- Why there are no settings. -/
inductive Failure where
  | invalid (issues : List Issue)
  | file (reason : FileFailure)

def field {α : Type} (s : Sources) (name : String) (fallback : α)
    (read : Value → Except Issue.Reason α) : α × List Issue :=
  match s.find? name with
  | none => (fallback, [])
  | some v =>
    match read v with
    | .ok a => (a, [])
    | .error reason => (fallback, [⟨name, reason⟩])

def urlField : String := "database_url"

/-- Reads all fields; the issues are in the order of the fields. -/
def ofSources (s : Sources) : Settings × List Issue :=
  let d : Settings := {}
  let (databaseUrl, i1) := field s urlField d.databaseUrl text
  let (databaseEcho, i2) := field s "database_echo" d.databaseEcho truth
  let (poolSize, i3) := field s "database_pool_size" d.poolSize (integer (some 1) (some 100))
  let (maxOverflow, i4) :=
    field s "database_max_overflow" d.maxOverflow (integer (some 0) (some 100))
  let (autoCreateTable, i5) := field s "auto_create_table" d.autoCreateTable truth
  let (unloggedTable, i6) := field s "unlogged_table" d.unloggedTable truth
  let (allowNullValues, i7) := field s "allow_null_values" d.allowNullValues truth
  let (defaultTtl, i8) := field s "default_ttl" d.defaultTtl (optional (integer (some 1) none))
  let (sizeCacheSeconds, i9) :=
    field s "size_cache_seconds" d.sizeCacheSeconds (double (some 0) (some 300) none)
  let (backgroundCleanup, i10) := field s "background_cleanup_enabled" d.backgroundCleanup truth
  let (cleanupInterval, i11) :=
    field s "cleanup_interval" d.cleanupInterval (double none none (some 0))
  let (shutdownTimeout, i12) :=
    field s "shutdown_timeout" d.shutdownTimeout (double (some 0) (some 60) none)
  let (retryMaxAttempts, i13) :=
    field s "retry_max_attempts" d.retryMaxAttempts (integer (some 1) (some 10))
  let (retryInitialDelay, i14) :=
    field s "retry_initial_delay" d.retryInitialDelay (double (some 0) (some 10) none)
  let (retryFactor, i15) :=
    field s "retry_backoff_multiplier" d.retryFactor (double (some 1) (some 10) none)
  let (retryMaxDelay, i16) :=
    field s "retry_max_delay" d.retryMaxDelay (double (some 0) (some 60) none)
  let (logLevel, i17) := field s "log_level" d.logLevel level
  let (logFormat, i18) := field s "log_format" d.logFormat (oneOf ["json", "console"])
  let (logFile, i19) := field s "log_file" d.logFile (optional text)
  ({ databaseUrl, databaseEcho, poolSize, maxOverflow, autoCreateTable, unloggedTable,
     allowNullValues, defaultTtl, sizeCacheSeconds, backgroundCleanup, cleanupInterval,
     shutdownTimeout, retryMaxAttempts, retryInitialDelay, retryFactor, retryMaxDelay,
     logLevel, logFormat, logFile },
    i1 ++ i2 ++ i3 ++ i4 ++ i5 ++ i6 ++ i7 ++ i8 ++ i9 ++ i10 ++ i11 ++ i12 ++ i13 ++ i14 ++
      i15 ++ i16 ++ i17 ++ i18 ++ i19)

/-- Reads settings; the directory is made even if another field does not fit. -/
def load (files : Files) (s : Sources) : Except Failure Settings × Files :=
  let (settings, issues) := ofSources s
  let refused := issues.any (·.field == urlField)
  let issues := if !refused && ((filePart? settings.databaseUrl).any leadsThroughNull) then
    ⟨urlField, .embeddedNull⟩ :: issues else issues
  let made := if issues.any (·.field == urlField) then .ok files
    else makeHome files settings.databaseUrl
  match made with
  | .error reason => (.error (.file reason), files)
  | .ok files =>
    if issues.isEmpty then (.ok settings, files) else (.error (.invalid issues), files)

end ExpiringStore.Settings
