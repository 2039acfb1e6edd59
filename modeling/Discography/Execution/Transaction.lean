import Discography.Host.Session

/-!
# Transactions

A transaction is opened, its body runs inside, and it is ended: committed if the body succeeded and
rolled back if not. The error of the body is lost if the rollback fails as well; then only the log
has it.

## Main definitions

* `Connection.finish`: the body and the end of an open transaction
* `Connection.transaction`: a transaction from beginning to end
-/

namespace Discography

/-- What is reported about a transaction. -/
structure Narration where
  started : List Log.Event
  committed : List Log.Event
  rolledBack : Error → List Log.Event
  /-- The rollback failed after the body had failed. -/
  rollbackFailed : Error → HostError → Log.Event

namespace Narration

/-- An event about the running of statements. -/
def event (level : Log.Level) (message : String) (fields : List (String × String) := []) :
    Log.Event :=
  { level, target := Log.Target.execution, message := some message, fields }

/-- The event of a failed rollback. -/
def failureEvent (message : String) (cause : Error) (failure : HostError) : Log.Event :=
  event .warn message [("error", cause.message), ("rollback_error", failure.message)]

/-- Every turn of the transaction is reported. -/
def full : Narration where
  started := [event .debug "Transaction started"]
  committed := [event .debug "Transaction committed"]
  rolledBack cause := [event .debug "Transaction rolled back" [("error", cause.message)]]
  rollbackFailed := failureEvent "Rollback failed; original error discarded"

/-- Only a failed rollback is reported. -/
def terse : Narration where
  started := []
  committed := []
  rolledBack _ := []
  rollbackFailed := failureEvent "Rollback of statement batch failed"

end Narration

namespace Connection

variable {σ α : Type}

/-- Runs the body of an open transaction and ends the transaction. -/
def finish (conn : Connection σ) (n : Narration) (body : Connection σ → Session σ Error α) :
    Session σ Error α := do
  let tx := conn.inside
  match ← (body tx).attempt with
  | .ok result =>
    tx.perform .commit
    Session.reportAll n.committed
    return result
  | .error cause =>
    match ← (tx.ask .rollback).attempt with
    | .ok () =>
      Session.reportAll (n.rolledBack cause)
      Session.fail cause
    | .error failure =>
      Session.report (n.rollbackFailed cause failure)
      Session.fail (.host failure)

/-- Runs a body in a transaction of its own. -/
def transaction (conn : Connection σ) (body : Connection σ → Session σ Error α) :
    Session σ Error α := do
  conn.perform .start
  Session.reportAll Narration.full.started
  conn.finish .full body

end Connection

end Discography
