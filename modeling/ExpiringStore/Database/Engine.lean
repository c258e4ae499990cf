import ExpiringStore.Database.Url
import ExpiringStore.Failure
import ExpiringStore.Files
import ExpiringStore.Text.Characters

/-!
# Engines

An engine is made from a URL without connecting to anything: it knows its
dialect and where the table lives.  A URL that cannot be read, a dialect that
is not supported and a driver that cannot be used are refused.
-/

namespace ExpiringStore

/-- Where a table lives. -/
inductive Place where
  /-- In the memory of the engine, and lost with it. -/
  | memory
  | file (path : List String)
  | server (host : String) (port : Int)
  deriving DecidableEq, Repr, Inhabited

structure Engine where
  dialect : String
  place : Place
  deriving DecidableEq, Repr, Inhabited

/-- What the name of a driver stands for. -/
inductive DatabaseDriver where
  | embedded
  /-- A driver of embedded databases that makes everything else wait. -/
  | blocking
  | server
  /-- A driver that would have to be installed. -/
  | missing (name : String)
  /-- The name of something else. -/
  | other (meaning : String)
  deriving DecidableEq, Repr

namespace DatabaseDriver

def embeddedOnes : List (String × DatabaseDriver) := [
  ("aiosqlite", .embedded),
  ("base", .blocking),
  ("pysqlite", .blocking),
  ("pysqlcipher", .missing "pysqlcipher3"),
  ("insert", .other "'function' object"),
  ("dialect", .other "type object 'SQLiteDialect_pysqlite'"),
  ("dml", .other "module 'sqlalchemy.dialects.sqlite.dml'"),
  ("json", .other "module 'sqlalchemy.dialects.sqlite.json'")]

def serverOnes : List (String × DatabaseDriver) := [
  ("asyncpg", .server),
  ("base", .missing "psycopg"),
  ("psycopg", .missing "psycopg"),
  ("psycopg_async", .missing "psycopg"),
  ("psycopg2", .missing "psycopg2"),
  ("psycopg2cffi", .missing "psycopg2cffi"),
  ("pg8000", .missing "pg8000"),
  ("insert", .other "'function' object"),
  ("dml", .other "module 'sqlalchemy.dialects.postgresql.dml'"),
  ("ext", .other "module 'sqlalchemy.dialects.postgresql.ext'"),
  ("json", .other "module 'sqlalchemy.dialects.postgresql.json'"),
  ("ranges", .other "module 'sqlalchemy.dialects.postgresql.ranges'"),
  ("types", .other "module 'sqlalchemy.dialects.postgresql.types'")]

def embeddedTypes : List String := ["BLOB", "BOOLEAN", "CHAR", "DATE", "DATETIME", "DECIMAL",
  "FLOAT", "INTEGER", "Insert", "JSON", "NUMERIC", "REAL", "SMALLINT", "TEXT", "TIME",
  "TIMESTAMP", "VARCHAR"]

def serverTypes : List String := ["ARRAY", "BIGINT", "BIT", "BOOLEAN", "BYTEA", "CHAR", "CIDR",
  "DATE", "ENUM", "FLOAT", "HSTORE", "INET", "INTEGER", "INTERVAL", "Insert", "JSON", "JSONB",
  "MACADDR", "MONEY", "NUMERIC", "OID", "REAL", "SMALLINT", "TEXT", "TIME", "TIMESTAMP",
  "TSVECTOR", "UUID", "VARCHAR", "array", "hstore"]

/-- What a name stands for where a dialect looks for drivers. -/
def named? (dialect name : String) : Option DatabaseDriver :=
  let (drivers, types) :=
    if dialect == "sqlite" then (embeddedOnes, embeddedTypes) else (serverOnes, serverTypes)
  (drivers.lookup name).or
    (if types.contains name then some (.other s!"type object '{name}'") else none)

end DatabaseDriver

namespace Engine

/-- The dialects that have a table. -/
def supported : List String := ["postgresql", "sqlite"]

/-- A complaint about a URL while the engine is made. -/
def refused {α : Type} (cause : Complaint.Cause) : Except Failure α := refuse cause "startup"

def driver (u : DatabaseUrl) : Except Failure DatabaseDriver :=
  let found (name : String) : Except Failure DatabaseDriver :=
    match DatabaseDriver.named? u.dialect name with
    | some d => .ok d
    | none => refused (.engineRefused ("Can't load plugin: sqlalchemy.dialects:" ++
        String.intercalate "." u.nameParts))
  match u.nameParts with
  | [_] => found "base"
  | [_, name] => found name
  | _ => .error (.engine .severalDrivers)

/-! ## Options -/

/-- What the value of an option has to be. -/
inductive OptionKind where
  | truth
  | whole
  | real
  deriving DecidableEq, Repr

/-- The options of an embedded database whose values are read, in order. -/
def embeddedOptions : List (String × OptionKind) := [("uri", .truth), ("timeout", .real),
  ("detect_types", .whole), ("check_same_thread", .truth), ("cached_statements", .whole)]

def serverOptions : List (String × OptionKind) := [("prepared_statement_cache_size", .whole)]

/-- Is the value true?  Case and blanks around it do not count. -/
def readTruth (given : String) : Except EngineFault Bool :=
  let word := smallLetters (String.ofList (trimmed isSpacing given.toList))
  if ["true", "yes", "on", "y", "t", "1"].contains word then .ok true
  else if ["false", "no", "off", "n", "f", "0"].contains word then .ok false
  else .error (.notTruth word)

/-- Reads the values of an option; more than one is always true, and is no number. -/
def readOption : OptionKind → List String → Except EngineFault Unit
  | _, [] => .ok ()
  | .truth, [v] => (readTruth v).map fun _ => ()
  | .whole, [v] => ((Numeral.whole v).mapError .numeral).map fun _ => ()
  | .real, [v] => ((Numeral.real v).mapError .numeral).map fun _ => ()
  | .truth, _ => .ok ()
  | .whole, _ => .error (.severalValues
      "int() argument must be a string, a bytes-like object or a real number")
  | .real, _ => .error (.severalValues "float() argument must be a string or a real number")

def readOptions (u : DatabaseUrl) (options : List (String × OptionKind)) : Except Failure Unit :=
  options.forM fun (name, kind) => (readOption kind (u.values name)).mapError .engine

/-! ## Places -/

/-- The file of an embedded database: relative paths without detours, absolute
ones below a root of their own. -/
def filePath (s : String) : List String :=
  match Files.place? s with
  | some path => path
  | none => "/" :: ((s.splitOn "/").filter (!·.isEmpty))

/-- The scheme of a path that is itself a URL. -/
def fileScheme : String := "file:"

/-- Is the path of a URL itself a URL? -/
def isNested (u : DatabaseUrl) : Bool :=
  match u.values "uri" with
  | [] => false
  | [v] => (readTruth v).toOption.getD false
  | _ => true

def embeddedPlace (u : DatabaseUrl) : Place :=
  let path := u.path.getD ""
  let nested := isNested u && path.startsWith fileScheme
  let path := if nested then (path.drop fileScheme.length).toString else path
  if path.isEmpty || path == ":memory:" || (nested && u.values "mode" == ["memory"]) then .memory
  else .file (filePath path)

/-- Is there anything in a URL that an embedded database has no use for? -/
def namesServer (u : DatabaseUrl) : Bool :=
  [u.user, u.password, u.host].any (fun p => !(p.getD "").isEmpty) || u.port.getD 0 != 0

/-! ## Engines -/

def embedded (u : DatabaseUrl) (blocking : Bool) : Except Failure Engine := do
  if namesServer u then
    refused (.engineRefused ("Invalid SQLite URL: " ++ u.shown ++ "\n" ++
      "Valid SQLite URL forms are:\n sqlite:///:memory: (or, sqlite://)\n" ++
      " sqlite:///relative/path/to/file.db\n sqlite:////absolute/path/to/file.db"))
  else
    readOptions u embeddedOptions
    if blocking then
      refused (.engineRefused ("The asyncio extension requires an async driver to be used. " ++
        "The loaded 'pysqlite' is not async."))
    else return ⟨"sqlite", embeddedPlace u⟩

/-- The port at which a server is looked for unless the URL says another. -/
def usualPort : Int := 5432

def ofServer (u : DatabaseUrl) : Except Failure Engine := do
  readOptions u serverOptions
  let port := u.port.getD 0
  return ⟨"postgresql",
    .server (u.host.getD "localhost") (if port == 0 then usualPort else port)⟩

/-- Makes the engine of a URL of a supported dialect.  No extensions can be loaded. -/
def ofSupported (u : DatabaseUrl) : Except Failure Engine :=
  match u.values "plugin" with
  | name :: _ => refused (.engineRefused ("Can't load plugin: sqlalchemy.plugins:" ++ name))
  | [] => do
    match ← driver u with
    | .embedded => embedded u false
    | .blocking => embedded u true
    | .server => ofServer u
    | .missing name => .error (.engine (.missingDriver name))
    | .other meaning => .error (.engine (.notDriver meaning))

def ofUrl (url : String) : Except Failure Engine :=
  match DatabaseUrl.parse url with
  | .error .unreadable =>
    refused (.invalidUrl "Could not parse SQLAlchemy URL from given URL string")
  | .error (.port reason) => .error (.engine (.numeral reason))
  | .error .portMissing => .error (.engine .portMissing)
  | .ok u =>
    if supported.contains u.dialect then ofSupported u
    else refused (.unsupportedDialect u.dialect)

def noAnswer (host : String) (port : Int) : Failure :=
  .fault ⟨.system, s!"[Errno 111] Connect call failed ('{host}', {port})", false⟩

def cannotOpen : Failure := .fault ⟨.operational, Fault.engineText, false⟩

/-- The fault of a file that has a null character in its name. -/
def embeddedNull : Failure := .fault ⟨.value, "embedded null byte", false⟩

/-- The fault of a file that holds something else. -/
def notDatabase : Failure := .fault ⟨.driver, Fault.engineText, false⟩

/-- The fault of a statement about a table that is not there. -/
def noTable : Failure := .fault ⟨.operational, Fault.engineText, false⟩

def connectFault? (files : Files) : Place → Option Failure
  | .memory => none
  | .server host port =>
    if port < 0 || 65535 < port then some (.engine .portOutOfRange)
    else some (noAnswer host port)
  | .file path =>
    if path.any (·.toList.contains '\x00') then some embeddedNull
    else if path.any Files.isTooLong then some cannotOpen
    else if files.isDirectory path then some cannotOpen
    else if files.plain.contains path then some notDatabase
    else if path.head? == some "/" || files.isDirectory path.dropLast then none
    else some cannotOpen

end Engine

end ExpiringStore
