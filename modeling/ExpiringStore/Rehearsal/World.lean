import ExpiringStore.Database.Engine
import ExpiringStore.Rehearsal.Script

/-!
# The stage of a rehearsal

Clocks, files, databases, stores and sweepers, the script that is still to
come, and a journal of what has been seen.
-/

namespace ExpiringStore.Rehearsal

/-- Which database is meant. -/
inductive DatabaseId where
  /-- The own one of a store. -/
  | own (store : String)
  | shared (name : String)
  deriving DecidableEq, Repr, Inhabited

/-- A database with its engine, if that is open. -/
structure Database where
  settings : Settings
  engine : Option Engine := none
  /-- The table of an engine that keeps it in memory. -/
  memory : Option (Table Number) := none
  schemaReady : Bool := false
  /-- Is somebody at the gate of the table? -/
  schemaLocked : Bool := false
  deriving Inhabited

/-- Why a program does not go on. -/
inductive Delay where
  /-- Never goes on by itself. -/
  | hanging
  /-- Goes on after a moment. -/
  | slowness
  deriving DecidableEq, Repr

/-- What is left of a cleanup that is under way, and why it does not go on. -/
structure Sweep where
  rest : Operation Number Nat
  delay : Option Delay := none

structure Store where
  settings : Settings
  database : DatabaseId
  listeners : Listeners
  statistics : Statistics := {}
  memo : SizeMemo Number := {}
  started : Bool := false
  /-- Is somebody at the gate of the store? -/
  locked : Bool := false
  startedAt : Option Number := none
  sweeper : Option (Sweeper Sweep) := none

/-- What has been seen. -/
structure Journal where
  /-- Calls of listeners: who, which method, with what. -/
  events : List (String × String × List Value) := []
  pauses : List Number := []
  entries : List Log.Entry := []
  deriving Inhabited

/-- The stage. -/
structure World where
  clock : Number := .int 1000
  wall : Number := .int 5000
  files : Files := {}
  /-- The tables in files. -/
  tables : List (List String × Table Number) := []
  databases : List (DatabaseId × Database) := []
  stores : List (String × Store) := []
  /-- Sweepers apart from those of the stores, each with its store. -/
  sweepers : List (String × String × Sweeper Sweep) := []
  encounters : List Encounter := []
  storeScripts : List (String × StoreScript) := []
  listenerScripts : List (String × ListenerScript) := []
  journal : Journal := {}
  deriving Inhabited

/-- Sets the value of a name, in its place if there is one. -/
def setEntry {α β : Type} [BEq α] (key : α) (value : β) : List (α × β) → List (α × β)
  | [] => [(key, value)]
  | (k, v) :: rest => if k == key then (k, value) :: rest else (k, v) :: setEntry key value rest

namespace World

/-! ## The journal -/

def failureField : String := "error"

/-- A field in which the wording of the storage engine hides everything else of a failure. -/
def masked : String × Value → String × Value
  | (name, .str s) =>
    let hides := name == failureField && (s.splitOn Fault.engineText).length > 1
    (name, .str (if hides then Fault.engineText else s))
  | field => field

def log (w : World) (e : Log.Entry) : World :=
  let e := { e with fields := e.fields.map masked }
  { w with journal := { w.journal with entries := w.journal.entries ++ [e] } }

def pause (w : World) (length : Number) : World :=
  { w with journal := { w.journal with pauses := w.journal.pauses ++ [length] } }

def see (w : World) (listener method : String) (arguments : List Value) : World :=
  { w with journal :=
    { w.journal with events := w.journal.events ++ [(listener, method, arguments)] } }

/-! ## Stores and databases -/

def store? (w : World) (name : String) : Option Store := w.stores.lookup name

def setStore (w : World) (name : String) (s : Store) : World :=
  { w with stores := setEntry name s w.stores }

def modifyStore (w : World) (name : String) (f : Store → Store) : World :=
  match w.store? name with
  | some s => w.setStore name (f s)
  | none => w

def database (w : World) (d : DatabaseId) : Database := (w.databases.lookup d).getD default

def setDatabase (w : World) (d : DatabaseId) (db : Database) : World :=
  { w with databases := setEntry d db w.databases }

def databaseOf (w : World) (name : String) : DatabaseId :=
  ((w.store? name).map (·.database)).getD (.own name)

def listener? (w : World) (name : String) : Option ListenerId :=
  (w.listenerScripts.lookup name).map fun l => ⟨name, l.kind.type⟩

def settingsOf (w : World) (s : StoreScript) : Except Settings.Failure Settings × Files :=
  let home := [(Settings.urlField, Value.str s.home.toUrl)]
  Settings.load w.files { arguments := s.arguments.foldl (fun as (n, v) => setEntry n v as) home }

/-- Sets up the store of a name with its script, unless that has been done. -/
def ensureStore (w : World) (name : String) : Except Settings.Failure Unit × World :=
  match w.store? name with
  | some _ => (.ok (), w)
  | none =>
    let script := (w.storeScripts.lookup name).getD {}
    let (settings, files) := w.settingsOf script
    let w := { w with files }
    match settings with
    | .error e => (.error e, w)
    | .ok settings =>
      let id := match script.database with
        | some shared => .shared shared
        | none => .own name
      let w := if (w.databases.lookup id).isSome then w else w.setDatabase id { settings }
      let listeners := Listeners.ofList (script.listeners.map fun l => l.bind w.listener?)
      (.ok (), w.setStore name { settings, database := id, listeners })

/-- How a store tries transactions, and what else it is set up with. -/
def config (w : World) (s : Store) : Config Number :=
  let retry := (w.database s.database).settings
  { allowNull := s.settings.allowNullValues
    autoCreate := s.settings.autoCreateTable
    backgroundCleanup := s.settings.backgroundCleanup
    defaultTtl := s.settings.defaultTtl
    sizeWindow := .float s.settings.sizeCacheSeconds
    retry := {
      maxAttempts := retry.retryMaxAttempts
      initialDelay := .float retry.retryInitialDelay
      maxDelay := .float retry.retryMaxDelay
      factor := .float retry.retryFactor }
    ownsDatabase := match s.database with
      | .own _ => true
      | .shared _ => false }

/-! ## Tables -/

/-- The clock reading that a store takes: a double. -/
def reading (w : World) : Except Failure Number :=
  match w.clock.toDouble? with
  | some x => .ok (.float x)
  | none => .error .tooLargeForDouble

/-- The table at a place; none if there is no table. -/
def tableAt (w : World) (db : Database) : Place → Option (Table Number)
  | .memory => db.memory
  | .file path => w.tables.lookup path
  | .server _ _ => none

/-- The table of a database whose engine is open, or why it cannot be reached. -/
def connect (w : World) (d : DatabaseId) : Except Failure (Option (Table Number)) :=
  let db := w.database d
  match db.engine with
  | none => .error (.complaint ⟨.notInitialized, none, none⟩)
  | some e =>
    match Engine.connectFault? w.files e.place with
    | some f => .error f
    | none => .ok (w.tableAt db e.place)

/-- Puts a table in the place of the old one, or takes it away. -/
def setTable (w : World) (d : DatabaseId) (t : Option (Table Number)) : World :=
  let db := w.database d
  match db.engine with
  | some ⟨_, .memory⟩ => w.setDatabase d { db with memory := t }
  | some ⟨_, .file path⟩ =>
    match t with
    | some t => { w with tables := setEntry path t w.tables }
    | none => { w with tables := w.tables.filter (·.1 != path) }
  | _ => w

def rowCount (w : World) (d : DatabaseId) : Option Nat :=
  match w.connect d with
  | .ok (some t) => some t.size
  | _ => none

/-! ## What others do -/

def seedRow (w : World) (s : Seed) : Except Failure (Row Number) :=
  let double (n : Number) : Number := .float n.toDouble
  match s.policy with
  | none => .error Transaction.missingValue
  | some policy =>
    Transaction.constrained ⟨s.payload, double (s.updatedAt.getD w.clock),
      Cell.whole? s.ttl, policy, (s.lastAccessed.getD (some w.clock)).map double⟩

/-- The acts of others while a transaction is under way.  Clocks and stores keep
what happened to them even if the transaction fails later. -/
def act (w : World) (t : Option (Table Number)) :
    List Act → Except Failure (Option (Table Number)) × World
  | [] => (.ok t, w)
  | .write seed :: rest =>
    match t, w.seedRow seed with
    | none, _ => (.error Engine.noTable, w)
    | some _, .error f => (.error f, w)
    | some t, .ok row => w.act (some (t.insert seed.key row)) rest
  | .erase key :: rest =>
    match t with
    | none => (.error Engine.noTable, w)
    | some t => w.act (some (t.erase key)) rest
  | .forgetSize store :: rest =>
    let forget (s : Store) : Store := { s with memo := ⟨s.memo.generation + 1, none⟩ }
    (w.modifyStore store forget).act t rest
  | .advance length :: rest =>
    match w.clock.add? length with
    | some clock => { w with clock }.act t rest
    | none => (.error .tooLargeForDouble, w)

/-! ## Transactions -/

/-- The next encounter of a transaction, which is gone from the script then. -/
def nextEncounter (w : World) : Encounter × World :=
  match w.encounters with
  | [] => (.nothing, w)
  | e :: rest => (e, { w with encounters := rest })

/-- The first statement of a transaction, which fails if it cannot be written as text, or if it
needs a table that is not there. -/
def firstOn (t : Option (Table Number)) (a : Transaction Number) :
    Except Failure (Transaction.Begun Number a.Reply) :=
  if !a.isWritable then .error Transaction.notWritten
  else
    match t, a with
    | some t, a => Transaction.firstOn t a
    | none, .probe => Transaction.firstOn .empty .probe
    | none, _ => .error Engine.noTable

/-- One attempt at a transaction in some company. -/
def attemptAmid (w : World) (d : DatabaseId) (a : Transaction Number) (before after : List Act)
    (raised refusal : Option Failure) : Except Failure a.Reply × World :=
  match w.connect d with
  | .error f => (.error f, w)
  | .ok t =>
    match w.act t before with
    | (.error f, w) => (.error f, w)
    | (.ok t, w) =>
      match firstOn t a with
      | .error f => (.error f, w)
      | .ok begun =>
        match w.act (t.map fun _ => begun.table) after with
        | (.error f, w) => (.error f, w)
        | (.ok t, w) =>
          match raised, begun.answer (t.getD .empty), refusal with
          | some f, _, _ => (.error f, w)
          | none, .error f, _ => (.error f, w)
          | none, .ok _, some f => (.error f, w)
          | none, .ok r, none => (.ok r, w.setTable d t)

def attempt (w : World) (d : DatabaseId) (a : Transaction Number) :
    Encounter → Except Failure a.Reply × World
  | .failure f => (.error f, w)
  | .company before after raised refusal => w.attemptAmid d a before after raised refusal
  | _ => w.attemptAmid d a [] [] none none

end World

end ExpiringStore.Rehearsal
