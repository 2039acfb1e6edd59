import Discography.Catalogue.Store
import Discography.Host.BuiltIn
import Discography.Service.Error

/-!
# The service

A catalogue with its configuration. The service starts by checking its configuration, setting up
logging, checking that the database answers, and creating the tables; the first failure ends the
start.

## Main definitions

* `Service`: the type
* `Service.start`: starts the service with the database of a host
* `Service.startBuiltIn`: starts the service with a built-in database
-/

namespace Discography

/-- A catalogue with its configuration. -/
structure Service (σ : Type) where
  config : Config
  catalogue : Catalogue σ

namespace Service

variable {σ : Type}

/-- An event about the service. -/
def event (message : String) (fields : List (String × String) := []) : Log.Event :=
  { level := .info, target := Log.Target.service, message := some message, fields }

/-- The event after the database was opened, with its location as far as it may be shown. -/
def opened (c : Config) : Log.Event :=
  event "Opened catalogue database"
    [("database", c.locationText), ("max_connections", toString c.maxConnections.toNat)]

/-- Checks the configuration. -/
def checkConfig (c : Config) : Session σ ServiceError Unit :=
  Session.ofExcept (c.validate.mapError fun cause => .start (.config cause))

/-- Sets up logging if it is configured. -/
def startLogging (c : Config) : Session σ ServiceError Unit :=
  match c.logging with
  | some logging => (Session.installLog logging).mapError fun cause => .start (.logging cause)
  | none => pure ()

/-- Starts the service with a database that is at hand. -/
def assemble (c : Config) (host : Host σ) : Session σ ServiceError (Service σ) := do
  let conn : Connection σ := ⟨host, false⟩
  conn.checkHealth.mapError .unreachable
  let catalogue : Catalogue σ := ⟨conn, c.flavor.dialect⟩
  if c.createSchema then
    catalogue.createSchema.mapError .library
    Session.report (event "Catalogue schema ready")
  return ⟨c, catalogue⟩

/-- Starts the service with the database of a host. -/
def start (c : Config) (host : Host σ) : Session σ ServiceError (Service σ) := do
  checkConfig c
  startLogging c
  Session.report (event "Using host database handle" [("flavor", c.flavor.label)])
  assemble c host

/-- Starts the service with a built-in database, one that was just created unless there is another
engine. -/
def startBuiltIn (c : Config) (ids : Identifier.Source σ Error)
    (engine : BuiltIn.Engine σ := .fresh) : Session σ ServiceError (Service σ) := do
  checkConfig c
  if c.flavor = .mysql then Session.fail .noMysql
  else
    startLogging c
    (BuiltIn.connect engine c.database).mapError .host
    Session.report (opened c)
    assemble c (.builtIn engine ids)

/-- Checks that the database answers. -/
def checkHealth (s : Service σ) : Session σ ServiceError Unit :=
  s.catalogue.conn.checkHealth.mapError .host

end Service

end Discography
