import Discography.Config.Database
import Discography.Json.Decode
import Discography.Log.Config
import Discography.Sql.Dialect

/-!
# Configuration of the service

Where the database is, how its connections are opened, which dialect of SQL is spoken, and how
events are logged.

## Main definitions

* `Location`, `Flavor`: the database and its dialect
* `Config`: the type
* `Config.validate`: the checks that a configuration has to pass
* `Config.database`: the configuration of the database
-/

namespace Discography

/-- Where the database is. -/
inductive Location where
  | file (path : String)
  | inMemory
  deriving DecidableEq

/-- The path of a database in a file. -/
def Location.path? : Location → Option String
  | file path => some path
  | inMemory => none

/-- The dialect that the database speaks. -/
inductive Flavor where
  | sqlite
  | mysql
  deriving DecidableEq

/-- Why a configuration is refused. -/
inductive ConfigError where
  | unknownFlavor (text : String)
  | noLocation
  | emptyPath
  | noConnections
  | minAboveMax (least greatest : UInt32)
  /-- Several connections to a database in memory. -/
  | sharedMemory
  | noTimeout
  | emptyCache
  deriving DecidableEq

/-- The wording of the refusal. -/
def ConfigError.message : ConfigError → String
  | unknownFlavor text =>
    "Unknown SQL flavor '" ++ text ++ "'. Expected 'sqlite' or 'mysql'."
  | noLocation =>
    "Database location is required. Use .database_path() or .in_memory() to set it."
  | emptyPath => "Database path cannot be empty"
  | noConnections => "max_connections must be greater than 0"
  | minAboveMax least greatest =>
    "min_connections (" ++ toString least.toNat ++ ") cannot exceed max_connections (" ++
      toString greatest.toNat ++ ")"
  | sharedMemory =>
    "In-memory databases are private to one connection. " ++
      "Set max_connections to 1 or use .database_path() for a shared file database."
  | noTimeout => "acquire_timeout_secs must be greater than 0"
  | emptyCache =>
    "Statement cache capacity must be greater than 0. " ++
      "Use .disable_statement_cache() to turn the cache off."

namespace Flavor

/-- The dialect of a flavor. -/
def dialect : Flavor → Dialect
  | sqlite => .sqlite
  | mysql => .mysql

/-- The name of a flavor. -/
def name : Flavor → String
  | sqlite => "sqlite"
  | mysql => "mysql"

/-- The name of a flavor in log fields. -/
def label : Flavor → String
  | sqlite => "Sqlite"
  | mysql => "Mysql"

/-- The flavor that a text names, in any case. -/
def parse (text : String) : Except ConfigError Flavor :=
  let lower := String.ofList (text.toList.map Char.toLower)
  match [sqlite, mysql].find? (·.name = lower) with
  | some flavor => .ok flavor
  | none => .error (.unknownFlavor lower)

end Flavor

instance : ToJson Flavor := ⟨fun f => .string f.name⟩

instance : FromJson Flavor := ⟨Json.constant [.sqlite, .mysql] Flavor.name⟩

/-- A configuration of the service. -/
structure Config where
  location : Location
  minConnections : UInt32
  maxConnections : UInt32
  acquireTimeoutSecs : UInt64
  /-- How many prepared statements are kept; absent if none are. -/
  cacheCapacity : Option UInt64
  flavor : Flavor
  /-- Whether the text of statements is logged. -/
  logSql : Bool
  /-- Whether missing tables are created at the start. -/
  createSchema : Bool
  /-- Absent if logging is left alone. -/
  logging : Option Log.Config

namespace Config

/-- Refuses if a condition holds. -/
def refuseIf (b : Bool) (cause : ConfigError) : Except ConfigError Unit :=
  if b then .error cause else .ok ()

/-- The checks, of which the first that fails decides. -/
def validate (c : Config) : Except ConfigError Unit := do
  refuseIf (c.location = .file "") .emptyPath
  refuseIf (c.maxConnections = 0) .noConnections
  refuseIf (c.maxConnections < c.minConnections) (.minAboveMax c.minConnections c.maxConnections)
  refuseIf (c.location = .inMemory && 1 < c.maxConnections) .sharedMemory
  refuseIf (c.acquireTimeoutSecs = 0) .noTimeout
  refuseIf (c.cacheCapacity = some 0) .emptyCache

/-- How many prepared statements are kept unless configured. -/
def standardCapacity : UInt64 := 100

/-- The configuration of the database. -/
def database (c : Config) : DatabaseConfig :=
  { c.location.path?.elim DatabaseConfig.inMemory DatabaseConfig.file with
    minConnections := c.minConnections
    maxConnections := c.maxConnections
    acquireTimeoutSecs := c.acquireTimeoutSecs
    cache := c.cacheCapacity.isSome
    cacheCapacity := c.cacheCapacity.getD standardCapacity }

/-- The location as it appears in log lines. -/
def locationText (c : Config) : String :=
  c.location.path?.elim DatabaseConfig.memoryName (c.logging.getD {}).displayPath

end Config

end Discography
