import Discography.Config.Database
import Discography.Config.Url
import Discography.Host.Session

/-!
# The built-in database

The library opens SQLite databases by itself, with an engine that it brings along. What is said here
of such a database is what the library adds to the engine: how its URL is read, the wording of its
failures, and the events that it reports. What the engine does is not known.

## Main definitions

* `BuiltIn.Engine`: an engine; `BuiltIn.Engine.fresh` is one with a database just created
* `BuiltIn.connect`: the opening of a database
* `Host.builtIn`: a host with a built-in database
-/

namespace Discography

namespace BuiltIn

variable {σ : Type}

/-- An engine over states `σ`, which has a text for every failure. -/
structure Engine (σ : Type) where
  /-- Opens a database: the number of connections to it. -/
  connect : DatabaseConfig → σ → Except String Nat × σ
  /-- Does what a call asks for. A transaction is not asked for inside another one. -/
  run : (c : Call) → σ → Except String c.request.Answer × σ
  /-- Reads a row without a table. -/
  ping : σ → Except String Unit × σ

/-- An event about the built-in database. -/
def event (level : Log.Level) (message : String) (fields : List (String × String) := []) :
    Log.Event :=
  { level, target := Log.Target.builtIn, message := some message, fields }

/-- The failure of something that the engine was to do. -/
def failure (task text : String) : HostError := .databaseError (task ++ " failed: " ++ text)

/-! ### The opening -/

/-- Refuses a URL that names no database or has a parameter that cannot be used. -/
def checkUrl (text : String) : Except HostError Unit :=
  (DatabaseUrl.parse text >>= DatabaseUrl.check).mapError fun cause =>
    .databaseError ("Invalid database URL: error with configuration: " ++ cause.message)

/-- The event before a database is opened, with its URL. -/
def opening (c : DatabaseConfig) : Log.Event :=
  event .info "Creating SQLite database handle"
    [("database_url", c.url), ("min_connections", toString c.minConnections.toNat),
      ("max_connections", toString c.maxConnections.toNat)]

/-- The event after a database was opened. -/
def opened (connections : Nat) : Log.Event :=
  event .info "SQLite connection pool created successfully"
    [("connections", toString connections)]

/-- The event after a database could not be opened. -/
def notOpened (text : String) : Log.Event :=
  event .warn "Failed to create connection pool" [("error", text)]

/-- The end of the opening, when the engine has answered. -/
def endOpening : Except String Nat → Session σ HostError Unit
  | .ok connections => Session.report (opened connections)
  | .error text => do
    Session.report (notOpened text)
    Session.fail (failure "Connection pool creation" text)

/-- Opens a database. -/
def connect (engine : Engine σ) (c : DatabaseConfig) : Session σ HostError Unit := do
  Session.report (opening c)
  Session.ofExcept (checkUrl c.url)
  let w ← get
  let (connections, host) := engine.connect c w.host
  set { w with host }
  endOpening connections

/-! ### Calls -/

/-- What a request is called in failures. -/
def taskOf : Request → String
  | .execute _ => "Execute"
  | .query _ => "Query"
  | .start => "Begin transaction"
  | .commit => "Commit transaction"
  | .rollback => "Rollback transaction"

/-- The reply to a call. -/
def Engine.answer (engine : Engine σ) : (c : Call) → σ → c.Reply × σ
  | ⟨true, .start⟩, s => (.error (.notAvailable "nested transactions are not supported"), s)
  | c, s => ((engine.run c s).1.mapError (failure (taskOf c.request)), (engine.run c s).2)

/-- The event before a call is answered. -/
def asking : Call → List Log.Event
  | ⟨false, .execute sql⟩ => [event .debug "Executing statement" [("statement", sql)]]
  | ⟨true, .execute sql⟩ =>
    [event .debug "Executing statement in transaction" [("statement", sql)]]
  | ⟨false, .query sql⟩ => [event .debug "Executing query" [("query", sql)]]
  | ⟨true, .query sql⟩ => [event .debug "Executing query in transaction" [("query", sql)]]
  | ⟨false, .start⟩ => [event .debug "Beginning transaction"]
  | ⟨true, .start⟩ => []
  | ⟨_, .commit⟩ => [event .debug "Committing transaction"]
  | ⟨_, .rollback⟩ => [event .debug "Rolling back transaction"]

/-- The event after a call outside of transactions was answered. -/
def answered : (c : Call) → c.Reply → List Log.Event
  | ⟨false, .execute _⟩, .ok outcome =>
    [event .debug "Statement executed successfully"
      [("rows_affected", toString outcome.rowsAffected.toNat)]]
  | ⟨false, .query _⟩, .ok rows =>
    [event .debug "Query executed successfully" [("row_count", toString rows.length)]]
  | _, _ => []

/-- The events about a call. -/
def report (c : Call) (reply : c.Reply) : List Log.Event := asking c ++ answered c reply

/-- The events about the check that the database answers. -/
def healthEvents (found : Except String Unit) : List Log.Event :=
  [event .debug "Performing database health check",
    match found with
    | .ok () => event .debug "Database health check passed"
    | .error text => event .warn "Database health check failed" [("error", text)]]

/-- The check that the database answers. -/
def Engine.health (engine : Engine σ) : HealthCheck σ := .own fun s =>
  let (found, s) := engine.ping s
  (found.mapError (failure "Health check"), healthEvents found, s)

/-! ### New databases -/

/-- A database that was just created accepts every statement and has no rows. -/
def emptyAnswer : (r : Request) → r.Answer
  | .execute _ => { lastInsertId := some 0 }
  | .query _ => []
  | .start => ()
  | .commit => ()
  | .rollback => ()

/-- The engine with a database that was just created, over one connection. -/
def Engine.fresh : Engine σ where
  connect _ s := (.ok 1, s)
  run c s := (.ok (emptyAnswer c.request), s)
  ping s := (.ok (), s)

end BuiltIn

/-- A host with a built-in database that was opened. -/
def Host.builtIn {σ : Type} (engine : BuiltIn.Engine σ) (ids : Identifier.Source σ Error) :
    Host σ where
  answer := engine.answer
  ids := ids
  health := engine.health
  report := BuiltIn.report

end Discography
