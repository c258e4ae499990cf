import ExpiringStore.Rehearsal.Handler
import ExpiringStore.Store.Health

/-!
# Steps of a rehearsal

A step calls an operation of a store or changes the surroundings.  It answers
or fails, and the next step is taken all the same.
-/

namespace ExpiringStore.Rehearsal

/-- A step, which concerns a store. -/
inductive Step where
  | call (c : Call)
  | startup
  | shutdown
  | tableExists
  | ping
  | ensureSchema
  | checkDatabase
  | checkCache
  | health
  | uptime
  | info
  | statistics
  | resetStatistics
  | listeners
  | addListener (name : Option String)
  | removeListener (name : Option String)
  /-- Several steps on stores, taken together. -/
  | gather (steps : List (String × Step))
  | advance (length : Number)
  | setClock (reading : Number)
  | setWall (reading : Number)
  | seed (s : Seed)
  | dropTable
  | schema
  | dump
  | script (encounters : List Encounter)
  | clearScript
  | sweeperNew (name : String) (interval shutdownTimeout : Option Number)
  | sweeperStart (name : Option String)
  | sweeperStop (name : Option String)
  | sweeperRunOnce (name : Option String)
  | sweeperState (name : Option String)
  | sweeperKill (name : Option String)
  | tick (name : Option String)
  deriving Inhabited

abbrev Outcome := Except Failure Answer × World

/-- An answer that leaves everything as it is. -/
def say (w : World) (a : Answer) : Outcome := (.ok a, w)

def dict (fields : List (String × Value)) : Value := .dict (fields.map fun f => (.str f.1, f.2))

/-! ## Stores -/

/-- Runs an operation and makes an answer of what it answers. -/
def answering {α : Type} (store : String) (p : Operation Number α) (toAnswer : α → Answer)
    (w : World) : Outcome :=
  let (r, w) := perform store p w
  (r.map toAnswer, w)

/-- The time since the store started. -/
def uptime (w : World) (s : Store) : Except Failure Number :=
  match s.startedAt with
  | none => .ok (.float 0)
  | some at' =>
    if at'.same (.int 0) then .ok (.float 0)
    else
      match w.wall.sub? at' with
      | some length => .ok length
      | none => .error .tooLargeForDouble

/-- A number to three places; whole numbers stay whole. -/
def toThreePlaces : Number → Number
  | .int n => .int n
  | .float x => .float (roundPlaces x 3)

/-- Running and the number of sweeps. -/
def sweeperFields (s : Option (Sweeper Sweep)) : List (String × Value) := [
  ("running", .bool (s.elim false (·.running))),
  ("sweeps", .int (s.elim 0 (·.sweeps)))]

/-- A summary of the health of a store that has been up for a while. -/
def healthSummary (w : World) (s : Store) (up : Number) (c : Operation.Checks) : Value :=
  let db := w.database s.database
  dict [
    ("status", .str (if c.database && c.cache then "healthy" else "degraded")),
    ("uptime_seconds", .ofNumber (toThreePlaces up)),
    ("size", (c.size.map fun n => .int n).getD .none),
    ("dialect", (db.engine.map fun e => .str e.dialect).getD .none),
    ("checks", dict [("database", .bool c.database), ("cache", .bool c.cache)]),
    ("statistics", dict s.statistics.fields),
    ("features", dict [
      ("null_values", .bool s.settings.allowNullValues),
      ("background_cleanup", .bool s.settings.backgroundCleanup),
      ("auto_create_table", .bool s.settings.autoCreateTable)]),
    ("sweeper", dict (sweeperFields s.sweeper))]

/-- Checks a store and sums up what was found. -/
def health (store : String) (s : Store) (w : World) : Outcome :=
  match perform store (Operation.checkHealth (w.config s)) w with
  | (.error f, w) => (.error f, w)
  | (.ok checks, w) =>
    let s := (w.store? store).getD s
    match uptime w s with
    | .error f => (.error f, w)
    | .ok up => say w (.value (healthSummary w s up checks))

/-- What is known of a store whose engine is open. -/
def info (s : Store) (w : World) : Outcome :=
  let db := w.database s.database
  match db.engine with
  | none => (.error (.complaint ⟨.notInitialized, none, none⟩), w)
  | some e => say w <| .value <| dict [
      ("started_at", (s.startedAt.map .ofNumber).getD .none),
      ("allow_null_values", .bool s.settings.allowNullValues),
      ("schema_ready", .bool db.schemaReady),
      ("engine", .bool true),
      ("dialect", .str e.dialect)]

/-- The counters, the rates and the line for people. -/
def statistics (s : Store) : Answer :=
  .value (dict (s.statistics.fields ++ [("str", .str s.statistics.text)]))

/-! ## The table -/

/-- Starts the store and writes a row behind its back. -/
def seed (store : String) (s : Store) (row : Seed) (w : World) : Outcome :=
  match perform store (Operation.startup (w.config s)) w with
  | (.error f, w) => (.error f, w)
  | (.ok _, w) =>
    match w.connect s.database with
    | .error f => (.error f, w)
    | .ok t =>
      match w.act t [.write row] with
      | (.error f, w) => (.error f, w)
      | (.ok t, w) => say (w.setTable s.database t) .nothing

/-- A payload that is kept as a number cannot be shown as structured data. -/
def numeralFailure? : List (String × Row Number) → Option Failure
  | [] => none
  | (_, r) :: rest =>
    match r.payload with
    | .numeral n => some (.payloadNotText (Value.ofNumber n).typeName)
    | _ => numeralFailure? rest

/-- All rows by key. -/
def dump (s : Store) (w : World) : Outcome :=
  if (w.database s.database).engine.isNone then say w .nothing
  else
    match w.connect s.database with
    | .error f => (.error f, w)
    | .ok none => (.error Engine.noTable, w)
    | .ok (some t) =>
      match numeralFailure? t.rows with
      | some f => (.error f, w)
      | none => say w (.rows t.rows)

/-- The columns of the table: name, type, whether a value is required, and the
place in the primary key. -/
def columns : List (String × String × Nat × Nat) := [
  ("key", "VARCHAR(512)", 1, 1),
  ("value", "JSON", 1, 0),
  ("updated_at", "FLOAT", 1, 0),
  ("ttl_seconds", "INTEGER", 0, 0),
  ("ttl_policy", "VARCHAR(10)", 1, 0),
  ("last_accessed", "FLOAT", 0, 0)]

def indexes : List String :=
  ["cache_entries_key_pattern_idx", "cache_entries_sliding_ttl_idx", "cache_entries_ttl_idx"]

/-- The columns and the indexes of the table, both empty where there is no table. -/
def schema (s : Store) (w : World) : Outcome :=
  match w.connect s.database with
  | .error f => (.error f, w)
  | .ok t =>
    let shown := columns.map fun (name, type, required, primary) =>
      Value.list [.str name, .str type, .int required, .int primary]
    say w <| .value <| dict [
      ("columns", .list (if t.isSome then shown else [])),
      ("indexes", .list (if t.isSome then indexes.map .str else []))]

/-! ## Sweepers -/

/-- The sweeper of a name with its store, or a store's own one. -/
def sweeper? (w : World) (store : String) : Option String → Option (String × Sweeper Sweep)
  | some name => w.sweepers.lookup name
  | none => ((w.store? store).bind (·.sweeper)).map (store, ·)

def setSweeper (w : World) (store : String) (name : Option String) (s : Sweeper Sweep) : World :=
  match name with
  | some name => { w with sweepers := setEntry name (store, s) w.sweepers }
  | none => w.modifyStore store ({ · with sweeper := some s })

/-- A new sweeper, with the usual times unless others are given. -/
def newSweeper (interval shutdownTimeout : Option Number) : Sweeper Sweep :=
  { interval := interval.getD (.float 300), shutdownTimeout := shutdownTimeout.getD (.float 5) }

def withSweeper (w : World) (store : String) (name : Option String) (method : String)
    (f : String → Sweeper Sweep → World → Sweeper Sweep × World) : Outcome :=
  match sweeper? w store name with
  | none => (.error (.noSweeper method), w)
  | some (store, s) =>
    let (s, w) := f store s w
    say (setSweeper w store name s) .nothing

/-- One sweep apart from the loop; a failure of it is the failure of the step. -/
def runOnce (w : World) (store : String) (name : Option String) : Outcome :=
  match sweeper? w store name with
  | none => (.error (.noSweeper "run_once"), w)
  | some (store, s) =>
    match w.store? store with
    | none => (.error (.noSweeper "run_once"), w)
    | some st =>
      match perform store (Operation.cleanupExpired (w.config st)) w with
      | (.error f, w) => (.error f, w)
      | (.ok n, w) => say (setSweeper w store name (s.count true)) (.count n)

/-- Ends the loop of a sweeper from outside. -/
def killLoop (w : World) (s : Sweeper Sweep) : Sweeper Sweep × World :=
  (s.own.elim s s.cancel, w)

/-! ## Steps -/

/-- Journals list the calls of listeners about many keys by key. -/
def sortEvents (w : World) : World :=
  let keyOf (e : String × String × List Value) : String := (e.2.2.head?.bind Value.text?).getD ""
  let events := w.journal.events.mergeSort fun a b => !(keyOf b < keyOf a)
  { w with journal := { w.journal with events } }

def Step.operation? (c : Config Number) : Step → Option (Operation Number Answer)
  | .call asked => some (asked.program c)
  | .startup => some ((fun _ => .nothing) <$> Operation.startup c)
  | .shutdown => some ((fun _ => .nothing) <$> Operation.shutdown c)
  | .tableExists => some (.bool <$> Operation.tableExists)
  | .ping => some (.bool <$> Operation.ping c)
  | .ensureSchema => some ((fun _ => .nothing) <$> Operation.ensureSchema)
  | .checkDatabase => some (.bool <$> Operation.checkDatabase c)
  | .checkCache => some (.bool <$> Operation.checkCache c)
  | _ => none

/-- Takes a step, neither an operation nor made of steps, on a store that has been set up. -/
def takeOn (store : String) (s : Store) (w : World) : Step → Outcome
  | .health => health store s w
  | .uptime => ((uptime w s).map fun up => .value (.ofNumber up), w)
  | .info => info s w
  | .statistics => say w (statistics s)
  | .resetStatistics =>
    say ((w.setStore store { s with statistics := {} }).log
      ⟨.debug, "Cache statistics reset", []⟩) .nothing
  | .listeners => say w (.texts s.listeners.names)
  | .addListener name =>
    match name.bind w.listener? with
    | some l => say (w.setStore store { s with listeners := s.listeners.add l }) .nothing
    | none => say w .nothing
  | .removeListener name =>
    match name.bind w.listener? with
    | some l =>
      say (w.setStore store { s with listeners := s.listeners.remove l })
        (.bool (s.listeners.isRegistered l))
    | none => say w (.bool false)
  | .advance length =>
    match w.clock.add? length with
    | some clock => say { w with clock } (.value (.ofNumber clock))
    | none => (.error .tooLargeForDouble, w)
  | .setClock clock => say { w with clock } (.value (.ofNumber clock))
  | .setWall wall => say { w with wall } .nothing
  | .seed row => seed store s row w
  | .dropTable =>
    match w.connect s.database with
    | .error f => (.error f, w)
    | .ok _ => say (w.setTable s.database none) .nothing
  | .schema => schema s w
  | .dump => dump s w
  | .script encounters =>
    let encounters := w.encounters ++ encounters
    say { w with encounters } (.count encounters.length)
  | .clearScript => say { w with encounters := [] } (.count w.encounters.length)
  | .sweeperNew name interval shutdownTimeout =>
    let sweeper := newSweeper interval shutdownTimeout
    say { w with sweepers := setEntry name (store, sweeper) w.sweepers } <| .value <| dict [
      ("interval", .ofNumber sweeper.interval),
      ("shutdown_timeout", .ofNumber sweeper.shutdownTimeout)]
  | .sweeperStart name => withSweeper w store name "start" fun _ s w => startSweeper w s
  | .sweeperStop name =>
    withSweeper w store name "stop" fun store s w =>
      stopSweeper (fun store p w => perform store p w) w store s
  | .sweeperRunOnce name => runOnce w store name
  | .sweeperState name =>
    match sweeper? w store name with
    | none => say w .nothing
    | some (_, s) => say w (.value (dict (sweeperFields (some s))))
  | .sweeperKill name => withSweeper w store name "_task" fun _ s w => killLoop w s
  | .tick name =>
    match sweeper? w store name with
    | none => say w (.bool false)
    | some (store, s) =>
      let (ticked, s, w) := Rehearsal.tick w store s
      say (setSweeper w store name s) (.bool ticked)
  | _ => say w .nothing

/-- What comes of a step: settings that do not fit, or an outcome. -/
abbrev Taken := Except Settings.Failure (Except Failure Answer)

/-- A step that has begun: it is over, or something of its operation is left. -/
inductive Begun where
  | over (taken : Taken)
  | left (store : String) (rest : Program Number (Except Failure Answer))

def Begun.finish (w : World) : Begun → Taken × World
  | .over taken => (taken, w)
  | .left store rest =>
    let (r, w) := rest.run (answer store) w
    (.ok r, w)

/-- What comes of steps that have begun, the first that had settings that do not fit counting for
all. -/
def finishAll (w : World) :
    List Begun → Except Settings.Failure (List (Except Failure Answer)) × World
  | [] => (.ok [], w)
  | b :: rest =>
    let (taken, w) := b.finish w
    let (all, w) := finishAll w rest
    (do return (← taken) :: (← all), w)

mutual

/-- Begins a step: sets up its store first if that has not been done. -/
def begin (store : String) (w : World) (step : Step) : Begun × World :=
  match w.ensureStore store with
  | (.error e, w) => (.over (.error e), w)
  | (.ok _, w) =>
    match step with
    | .gather steps =>
      let (begun, w) := beginAll w steps
      let (answers, w) := finishAll w begun
      (.over (answers.map (.ok ∘ .several)), sortEvents w)
    | step =>
      match w.store? store with
      | none => (.over (.ok (.ok .nothing)), w)
      | some s =>
        match step.operation? (w.config s) with
        | some p =>
          let (rest, w) := runFirst store p.run w
          (.left store rest, w)
        | none =>
          let (r, w) := takeOn store s w step
          (.over (.ok r), w)

def beginAll (w : World) : List (String × Step) → List Begun × World
  | [] => ([], w)
  | (store, step) :: rest =>
    let (b, w) := begin store w step
    let (bs, w) := beginAll w rest
    (b :: bs, w)

end

def take (store : String) (w : World) (step : Step) : Taken × World :=
  let (b, w) := begin store w step
  let (taken, w) := b.finish w
  match step with
  | .call (.evictAll ..) | .call (.evictByPattern ..) => (taken, sortEvents w)
  | _ => (taken, w)

/-! ## Entries -/

/-- What is known after a step: the journal of the step, the counters of the
store and the rows of its table. -/
structure Entry where
  taken : Taken
  statistics : Option Statistics
  rows : Option Nat
  journal : Journal

def record (store : String) (w : World) (step : Step) : Entry × World :=
  let (taken, w) := take store { w with journal := {} } step
  let s := w.store? store
  ({ taken
     statistics := s.map (·.statistics)
     rows := s.bind fun s => w.rowCount s.database
     journal := w.journal }, w)

end ExpiringStore.Rehearsal
