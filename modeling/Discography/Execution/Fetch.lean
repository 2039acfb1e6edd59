import Discography.Execution.Transaction
import Discography.Query.Render

/-!
# Fetching rows

A query is rendered, run, and its rows are made records; a counting query returns one natural
number.

## Main definitions

* `Query.fetch`, `Query.fetchOne`: the records of a query
* `Query.fetchAs`, `Query.fetchOneAs`: its typed values
* `Query.count`: the number of its rows
-/

namespace Discography.Query

variable {σ : Type}

/-- The records of all rows. -/
def fetch (q : Query) (conn : Connection σ) : Session σ Error (List Record) := do
  let rendered ← Session.ofExcept q.render
  let sql := rendered.sql.text
  Session.report (Narration.event .debug "Fetching rows" [("sql", sql)])
  let rows ← conn.perform (.query sql)
  Session.report (Narration.event .debug "Fetched rows" [("rows", toString rows.length)])
  Session.ofExcept (rendered.mapper.mapRows rows)

/-- The record of the only row. -/
def fetchOne (q : Query) (conn : Connection σ) : Session σ Error Record := do
  match ← q.fetch conn with
  | [record] => return record
  | records => Session.fail (.cardinality 1 records.length)

/-- The typed values of all rows. -/
def fetchAs (α : Type) [FromJson α] (q : Query) (conn : Connection σ) :
    Session σ Error (List α) := do
  let records ← q.fetch conn
  Session.ofExcept (records.mapM Record.decode)

/-- The typed value of the only row. -/
def fetchOneAs (α : Type) [FromJson α] (q : Query) (conn : Connection σ) : Session σ Error α := do
  let record ← q.fetchOne conn
  Session.ofExcept record.decode

/-- The number in the first cell of the first row. -/
def countOf (rows : List Row) : Result UInt64 :=
  match rows.head?.bind List.head? with
  | some (.integer n) =>
    if 0 ≤ n.toInt then .ok n.toUInt64 else .error (.decode (.count (some (.integer n))))
  | cell => .error (.decode (.count cell))

/-- The number of rows, whatever the projection, order and limits. -/
def count (q : Query) (conn : Connection σ) : Session σ Error UInt64 := do
  let sql := (← Session.ofExcept q.renderCount).text
  Session.report (Narration.event .debug "Counting rows" [("sql", sql)])
  let rows ← conn.perform (.query sql)
  Session.ofExcept (countOf rows)

end Discography.Query
