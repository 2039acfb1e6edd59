import Discography.Text.Search

/-!
# Configuration of the database

## Main definitions

* `DatabaseConfig`: how the connections to a database are opened
* `DatabaseConfig.file`, `DatabaseConfig.inMemory`: the configurations by location
-/

namespace Discography

/-- How the connections to a database are opened. -/
structure DatabaseConfig where
  url : String
  minConnections : UInt32 := 1
  maxConnections : UInt32
  /-- How long to wait for a connection. -/
  acquireTimeoutSecs : UInt64 := 30
  /-- Whether prepared statements are kept. -/
  cache : Bool := true
  cacheCapacity : UInt64 := 100
  deriving DecidableEq

namespace DatabaseConfig

/-- The name of a database that lives in memory. -/
def memoryName : String := ":memory:"

/-- A database in a file. -/
def file (path : String) : DatabaseConfig where
  url := "sqlite:" ++ path
  maxConnections := 5

/-- A database in memory, which only one connection can see. -/
def inMemory : DatabaseConfig where
  url := "sqlite:" ++ memoryName
  maxConnections := 1

/-- Whether the URL has the name of a database that lives in memory. -/
def isInMemory (c : DatabaseConfig) : Bool := Text.occursIn memoryName.toList c.url.toList

end DatabaseConfig

end Discography
