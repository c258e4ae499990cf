import ExpiringStore.Store.Attempt

/-!
# Starting and stopping

A store starts on first use or when it is asked to: it opens the engine, makes
the table if it is to, and starts its sweeper if it has one.  A gate keeps
callers that arrive together from doing so twice.  Stopping undoes it, and the
store may be started again.
-/

namespace ExpiringStore.Operation

variable {τ : Type} [Instant τ] [Delay τ]

def atGate (g : GateName) (step : GateStep) : Operation τ Bool := perform (.gate g step)

/-- The name of the open engine's dialect. -/
def dialect : Operation τ String := do
  match ← perform (.engine .dialect) with
  | some name => return name
  | none => throw (.complaint ⟨.notInitialized, none, none⟩)

def openEngine : Operation τ Unit := do
  match ← perform (.engine .start) with
  | .ok false => return ()
  | .ok true =>
    let name ← dialect
    log ⟨.info, "Database engine created", [("dialect", .str name)]⟩
  | .error failure =>
    if let some reason := failure.complaint?.bind (·.cause.refusal?) then
      log ⟨.error, "Database startup failed", [("error", .str reason)]⟩
    throw failure

def tableName : String := "cache_entries"

/-- Makes the table, in an engine that must be open. -/
def createTable : Operation τ Unit := do
  if !(← perform (.engine .isOpen)) then
    throw (.complaint ⟨.notInitialized, some "ensure_schema", none⟩)
  match ← perform (.engine .makeTable) with
  | .ok existed =>
    if existed then
      log ⟨.debug, "Cache table already exists, skipping creation", [("table", .str tableName)]⟩
    else
      let name ← dialect
      log ⟨.info, "Cache table created", [("table", .str tableName), ("dialect", .str name)]⟩
  | .error (.fault f) =>
    if f.kind.origin == .storageLayer then
      log ⟨.error, "Failed to initialize cache table", [("error", .str f.text)]⟩
      throw (.complaint ⟨.schemaFailed f.text, some "ensure_schema", none⟩)
    else throw (.fault f)
  | .error failure => throw failure

/-- Makes the table once per database. -/
def ensureSchema : Operation τ Unit := Gate.pass (ε := Failure) (atGate .schema) createTable

/-- Is the table there?  The engine must be open. -/
def hasTable : Operation τ Bool := do
  if !(← perform (.engine .isOpen)) then
    throw (.complaint ⟨.notInitialized, some "table_exists", none⟩)
  match ← perform (.engine .hasTable) with
  | .ok found => return found
  | .error (.fault f) =>
    if f.kind.origin == .storageLayer then
      throw (.complaint ⟨.existenceUnknown f.text, some "table_exists", none⟩)
    else throw (.fault f)
  | .error failure => throw failure

/-- Is the table there?  The engine is opened if it is not open. -/
def tableExists : Operation τ Bool := do
  openEngine
  hasTable

def start (c : Config τ) : Operation τ Unit := do
  openEngine
  if c.autoCreate then ensureSchema
  if c.backgroundCleanup then perform (.sweeper .start)
  perform (.noteRunning true)
  log ⟨.info, "Cache store started", [
    ("allow_null_values", .bool c.allowNull),
    ("background_cleanup", .bool c.backgroundCleanup)]⟩

def startup (c : Config τ) : Operation τ Unit :=
  Gate.pass (ε := Failure) (atGate .store) (start c)

def closeDatabase : Operation τ Unit := do
  if ← perform (.engine .isOpen) then
    perform (.engine .dispose)
    perform (.engine .release)
    discard (atGate .schema .bar)
    log ⟨.info, "Database connections closed", []⟩

/-- Stops the store. -/
def shutdown (c : Config τ) : Operation τ Unit := do
  perform (.sweeper .stop)
  if c.ownsDatabase then closeDatabase
  discard (atGate .store .bar)
  perform (.noteRunning false)

/-- Does the database answer? -/
def ping (c : Config τ) : Operation τ Bool := do
  transact c "ping" .probe
  return true

end ExpiringStore.Operation
