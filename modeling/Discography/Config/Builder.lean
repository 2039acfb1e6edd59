import Discography.Config.Basic

/-!
# Building configurations

A configuration is built from settings made in any order. What is not set has a default, which for
the connections depends on the location of the database.

## Main definitions

* `Config.Setting`: the settings
* `Config.set`: a configuration with one setting changed
* `Config.Builder`: what was set last
* `Config.Builder.build`: the configuration
-/

namespace Discography.Config

/-- A setting. -/
inductive Setting where
  | databasePath (path : String)
  | inMemory
  | minConnections (n : UInt32)
  | maxConnections (n : UInt32)
  | acquireTimeoutSecs (n : UInt64)
  | cacheCapacity (n : UInt64)
  | noCache
  | flavor (f : Flavor)
  | logSql (b : Bool)
  | createSchema (b : Bool)
  | logging (c : Log.Config)

/-- The configuration with one setting changed. Nothing is checked. -/
def set (c : Config) : Setting → Config
  | .databasePath path => { c with location := .file path }
  | .inMemory => { c with location := .inMemory }
  | .minConnections n => { c with minConnections := n }
  | .maxConnections n => { c with maxConnections := n }
  | .acquireTimeoutSecs n => { c with acquireTimeoutSecs := n }
  | .cacheCapacity n => { c with cacheCapacity := some n }
  | .noCache => { c with cacheCapacity := none }
  | .flavor f => { c with flavor := f }
  | .logSql b => { c with logSql := b }
  | .createSchema b => { c with createSchema := b }
  | .logging log => { c with logging := some log }

/-- What was set last. -/
structure Builder where
  location : Option Location := none
  minConnections : Option UInt32 := none
  maxConnections : Option UInt32 := none
  acquireTimeoutSecs : Option UInt64 := none
  cacheCapacity : Option (Option UInt64) := none
  flavor : Flavor := .sqlite
  logSql : Bool := false
  createSchema : Option Bool := none
  logging : Option Log.Config := none

namespace Builder

/-- Makes a setting. -/
def set (builder : Builder) : Setting → Builder
  | .databasePath path => { builder with location := some (.file path) }
  | .inMemory => { builder with location := some .inMemory }
  | .minConnections n => { builder with minConnections := some n }
  | .maxConnections n => { builder with maxConnections := some n }
  | .acquireTimeoutSecs n => { builder with acquireTimeoutSecs := some n }
  | .cacheCapacity n => { builder with cacheCapacity := some (some n) }
  | .noCache => { builder with cacheCapacity := some none }
  | .flavor f => { builder with flavor := f }
  | .logSql b => { builder with logSql := b }
  | .createSchema b => { builder with createSchema := some b }
  | .logging c => { builder with logging := some c }

/-- The settings made one after the other. -/
def ofList (settings : List Setting) : Builder := settings.foldl set {}

/-- The greatest number of connections unless set. -/
def standardMax : Location → UInt32
  | .inMemory => 1
  | .file _ => 5

/-- The configuration, before the checks. -/
def assemble (b : Builder) (location : Location) : Config :=
  let greatest := b.maxConnections.getD (standardMax location)
  { location
    minConnections := b.minConnections.getD (min 1 greatest)
    maxConnections := greatest
    acquireTimeoutSecs := b.acquireTimeoutSecs.getD 30
    cacheCapacity := b.cacheCapacity.getD (some standardCapacity)
    flavor := b.flavor
    logSql := b.logSql
    createSchema := b.createSchema.getD true
    logging := b.logging.map fun c => { c with sql := b.logSql } }

/-- The configuration. -/
def build (b : Builder) : Except ConfigError Config :=
  match b.location with
  | none => .error .noLocation
  | some location => do
    let c := b.assemble location
    c.validate
    return c

end Builder

end Discography.Config
