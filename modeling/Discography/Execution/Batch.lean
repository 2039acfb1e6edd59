import Discography.Execution.Transaction
import Discography.Query.Mutation

/-!
# Running statements

The texts of a statement run in order, up to the first failure. Several texts run in a transaction
of their own, so that all of them take effect or none; where the host has no transactions to offer,
or the connection is inside one already, they run directly. Their affected rows are summed, and the
key of the last inserted row is the one that the last text reports.

## Main definitions

* `Statement.runBatch`: texts in order
* `Statement.execute`: a statement
-/

namespace Discography.Statement

variable {σ : Type}

/-- The outcome of texts that ran one after the other; none if the affected rows exceed 64 bits. -/
def combine? (before last : Outcome) : Option Outcome :=
  if before.rowsAffected.toNat + last.rowsAffected.toNat < UInt64.size then
    some ⟨before.rowsAffected + last.rowsAffected, last.lastInsertId⟩
  else none

/-- Runs one more text. -/
def runText (conn : Connection σ) (before : Outcome) (text : String) : Session σ Error Outcome := do
  Session.report (Narration.event .debug "Executing statement" [("sql", text)])
  let last ← conn.perform (.execute text)
  match combine? before last with
  | some outcome => return outcome
  | none => Session.overflow

/-- Runs texts in order. -/
def runBatch (texts : List String) (conn : Connection σ) : Session σ Error Outcome := do
  let outcome ← texts.foldlM (runText conn) {}
  Session.report (Narration.event .debug "Statement executed"
    [("rows_affected", toString outcome.rowsAffected.toNat)])
  return outcome

/-- Runs a statement. -/
def execute (s : Statement) (conn : Connection σ) : Session σ Error Outcome :=
  if s.texts.length < 2 then runBatch s.texts conn
  else do
    match ← (conn.ask .start).attempt with
    | .ok () => conn.finish .terse (runBatch s.texts)
    | .error (.notAvailable reason) =>
      Session.report
        (Narration.event .debug "Running batch on the given handle" [("reason", reason)])
      runBatch s.texts conn
    | .error failure => Session.fail (.host failure)

end Discography.Statement
