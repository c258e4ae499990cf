import ExpiringStore.Number.Basic
import ExpiringStore.Value.Basic

/-!
# Settings

Everything about a store that is decided before it starts.
-/

namespace ExpiringStore

/-- The settings of a store and of its database. -/
structure Settings where
  databaseUrl : String := "sqlite+aiosqlite:///./tablecache.db"
  databaseEcho : Bool := false
  poolSize : Int := 10
  maxOverflow : Int := 20
  autoCreateTable : Bool := true
  unloggedTable : Bool := true
  allowNullValues : Bool := false
  defaultTtl : Option Int := none
  sizeCacheSeconds : Float := 5
  backgroundCleanup : Bool := false
  cleanupInterval : Float := 300
  shutdownTimeout : Float := 5
  retryMaxAttempts : Int := 3
  retryInitialDelay : Float := 0.1
  retryFactor : Float := 2
  retryMaxDelay : Float := 2
  logLevel : String := "INFO"
  logFormat : String := "json"
  logFile : Option String := none
  deriving Inhabited

namespace Settings

/-- Is the store kept in an embedded database? -/
def isEmbedded (s : Settings) : Bool := s.databaseUrl.startsWith "sqlite"

/-- The settings by name, in order, and whether the database is embedded. -/
def fields (s : Settings) : List (String × Value) := [
  ("database_url", .str s.databaseUrl),
  ("database_echo", .bool s.databaseEcho),
  ("database_pool_size", .int s.poolSize),
  ("database_max_overflow", .int s.maxOverflow),
  ("auto_create_table", .bool s.autoCreateTable),
  ("unlogged_table", .bool s.unloggedTable),
  ("allow_null_values", .bool s.allowNullValues),
  ("default_ttl", (s.defaultTtl.map .int).getD .none),
  ("size_cache_seconds", .float s.sizeCacheSeconds),
  ("background_cleanup_enabled", .bool s.backgroundCleanup),
  ("cleanup_interval", .float s.cleanupInterval),
  ("shutdown_timeout", .float s.shutdownTimeout),
  ("retry_max_attempts", .int s.retryMaxAttempts),
  ("retry_initial_delay", .float s.retryInitialDelay),
  ("retry_backoff_multiplier", .float s.retryFactor),
  ("retry_max_delay", .float s.retryMaxDelay),
  ("log_level", .str s.logLevel),
  ("log_format", .str s.logFormat),
  ("log_file", (s.logFile.map .str).getD .none),
  ("is_sqlite", .bool s.isEmbedded)]

end Settings

end ExpiringStore
