import ExpiringStore.Rehearsal.Step

/-!
# Databases on their own, and shared ones

A database can be rehearsed without a store on it, and a store on a database
that outlives it.
-/

namespace ExpiringStore.Rehearsal

/-! ## A database without a store -/

/-- What is asked of a database. -/
inductive DatabaseStep where
  | startup
  | shutdown
  | ping
  | tableExists
  | ensureSchema
  | dialectName
  /-- The type of the sessions that the database opens. -/
  | session
  /-- The dialect of insertions. -/
  | insert
  | info
  deriving DecidableEq, Repr, Inhabited

/-- The name under which the only store of a rehearsal goes. -/
def onlyStore : String := "a"

/-- A stage with one store that is not used, so that only its database shows. -/
def stageFor (arguments : List (String × Value)) (files : Files) : World :=
  { files
    storeScripts := [(onlyStore, { home := .url ({} : Settings).databaseUrl, arguments })] }

def whenOpen (s : Store) (w : World) (answer : Engine → Value) : Outcome :=
  match (w.database s.database).engine with
  | none => (.error (.complaint ⟨.notInitialized, none, none⟩), w)
  | some e => say w (.value (answer e))

/-- Connections kept, connections in excess of them, and whether a connection is
tried before it is used; nothing for an embedded database. -/
def poolFields (s : Settings) : Value :=
  if s.isEmbedded then .none else .list [.int s.poolSize, .int s.maxOverflow, .bool true]

def takeOnDatabase (s : Store) (w : World) : DatabaseStep → Outcome
  | .startup => answering onlyStore Operation.openEngine (fun _ => .nothing) w
  | .shutdown => answering onlyStore Operation.closeDatabase (fun _ => .nothing) w
  | .ping => answering onlyStore (Operation.ping (w.config s)) .bool w
  | .tableExists => answering onlyStore Operation.hasTable .bool w
  | .ensureSchema => answering onlyStore Operation.ensureSchema (fun _ => .nothing) w
  | .dialectName => whenOpen s w fun e => .str e.dialect
  | .session => whenOpen s w fun _ => .str "AsyncSession"
  | .insert => whenOpen s w fun e => .str e.dialect
  | .info => whenOpen s w fun e => dict [
      ("dialect", .str e.dialect),
      ("echo", .bool s.settings.databaseEcho),
      ("pool", poolFields s.settings),
      ("insert", .str e.dialect),
      ("schema_ready", .bool (w.database s.database).schemaReady)]

/-- Takes steps on a database, one after the other. -/
def takeAllOnDatabase (s : Store) (w : World) :
    List DatabaseStep → List (Except Failure Answer) × World
  | [] => ([], w)
  | step :: rest =>
    let (r, w) := takeOnDatabase s w step
    let (rs, w) := takeAllOnDatabase s w rest
    (r :: rs, w)

/-- Takes steps on a database and closes it in the end: the outcomes and the log. -/
def rehearseDatabase (arguments : List (String × Value)) (files : Files)
    (steps : List DatabaseStep) :
    Except Settings.Failure (List (Except Failure Answer) × List Log.Entry) :=
  match (stageFor arguments files).ensureStore onlyStore with
  | (.error e, _) => .error e
  | (.ok _, w) =>
    match w.store? onlyStore with
    | none => .ok ([], [])
    | some s =>
      let (rs, w) := takeAllOnDatabase s w (steps)
      let (_, w) := takeOnDatabase s w .shutdown
      .ok (rs, w.journal.entries)

/-! ## A store on a database that outlives it -/

/-- What was seen of a store on a shared database. -/
structure Sharing where
  /-- A result before the store was shut down, and one after. -/
  before : Lookup
  after : Lookup
  /-- Was the engine open after the store was shut down, and after everything was? -/
  openAfterStore : Bool
  openAfterAll : Bool

/-- Puts an entry, shuts the store down, finds the entry again, and shuts
everything down. -/
def rehearseSharing (arguments : List (String × Value)) (key value : Value) :
    Except Settings.Failure (Except Failure Sharing) :=
  let script : StoreScript := { arguments, database := some onlyStore }
  match World.ensureStore { storeScripts := [(onlyStore, script)] } onlyStore with
  | (.error e, _) => .error e
  | (.ok _, w) =>
    match w.store? onlyStore with
    | none => .ok (.error .absentValue)
    | some s => .ok do
      let c := w.config s
      let (r, w) := perform onlyStore (Operation.put c key value) w
      let _ ← r
      let (r, w) := perform onlyStore (Operation.get c key) w
      let before ← r
      let (r, w) := perform onlyStore (Operation.shutdown c) w
      let _ ← r
      let openAfterStore := (w.database s.database).engine.isSome
      let (r, w) := perform onlyStore (Operation.get c key) w
      let after ← r
      let (r, w) := perform onlyStore (Operation.shutdown c) w
      let _ ← r
      let (r, w) := perform onlyStore Operation.closeDatabase w
      let _ ← r
      let openAfterAll := (w.database s.database).engine.isSome
      return { before, after, openAfterStore, openAfterAll }

end ExpiringStore.Rehearsal
