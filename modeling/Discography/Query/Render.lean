import Discography.Query.Build
import Discography.Query.Shape

/-!
# Statements of a query

The `SELECT` statement of a query, the statement that counts its rows, and the table of its rows.
All three have the clauses `FROM`, `JOIN` and `WHERE` in common.

## Main definitions

* `Query.sourceSql`: the common clauses
* `Query.render`: the statement and the mapper of its rows
* `Query.renderCount`: the counting statement
* `Query.asTable`: the query as a table of other queries
-/

namespace Discography

/-- A statement that returns rows, and how its rows become records. -/
structure Rendered where
  sql : Sql
  mapper : RowMapper

namespace Query

/-- The lexemes of a join; one without a condition is unconditional. -/
def joinSql (d : Dialect) (j : Join) : Except NoLiteral Sql := do
  let condition ← (j.condition.getD (.literal true)).sql d
  return Sql.clause j.kind.keywords (j.table.sourceSql ++ Sql.clause ["ON"] (Sql.parens condition))

/-- The lexemes of joins in order. -/
def joinsSql (d : Dialect) : List Join → Except NoLiteral Sql
  | [] => .ok []
  | j :: rest => do
    let first ← joinSql d j
    return first ++ (← joinsSql d rest)

/-- The lexemes of a filter that may be absent. -/
def filterSql (d : Dialect) : Option Predicate → Except NoLiteral Sql
  | none => .ok []
  | some p => do return Sql.clause ["WHERE"] (← p.sql d)

/-- The tables, joins and filter of a query. -/
def sourceSql (q : Query) : Except NoLiteral Sql := do
  let joins ← joinsSql q.dialect q.joins
  return Sql.clause ["FROM"] q.primary.sourceSql ++ joins ++ (← filterSql q.dialect q.filter)

/-- A column of the `SELECT` list; within an object it is named by its key. -/
def leafSql : List String × Column → Sql
  | (path, c) =>
    match path.getLast? with
    | some key => c.sql ++ [.space, .word "AS", .space, .name key]
    | none => c.sql

/-- The order of a query. -/
def orderSql (q : Query) : Sql :=
  if q.order.isEmpty then []
  else Sql.clause ["ORDER", "BY"] (Sql.commas (q.order.map OrderTerm.sql))

/-- The limits of a query. A dialect that needs a limit before an offset has one that means all
rows. -/
def limitSql (q : Query) : Sql :=
  let limit : Option Int := match q.limit, q.offset with
    | some n, _ => some n.toNat
    | none, some _ => q.dialect.unbounded
    | none, none => none
  limit.elim [] (fun n => Sql.clause ["LIMIT"] [.integer n]) ++
    q.offset.elim [] (fun n => Sql.clause ["OFFSET"] [.integer n.toNat])

/-- The statement for the rows of a query. -/
def selectSql (q : Query) : Except NoLiteral Sql := do
  let columns := q.effectiveProjection.leaves.map leafSql
  return .word "SELECT" :: .space :: Sql.commas columns ++ (← q.sourceSql) ++ q.orderSql ++
    q.limitSql

/-- How the rows of a query become records. -/
def mapper (q : Query) : RowMapper :=
  .ofProjection q.dialect.name q.effectiveProjection q.optionalAliases

/-- The statement for the rows of a query, with the mapper of the rows. -/
def render (q : Query) : Result Rendered := do
  q.ensureNotJoining .render
  let sql ← q.selectSql.mapError .noLiteral
  return ⟨sql, q.mapper⟩

/-- The statement that counts the rows of the tables, joins and filter of a query. -/
def countSql (q : Query) : Except NoLiteral Sql := do
  return [.word "SELECT", .space, .word "COUNT"] ++ Sql.parens [.symbol "*"] ++ (← q.sourceSql)

/-- The statement that counts the rows of a query, whatever its projection, order and limits. -/
def renderCount (q : Query) : Result Sql := do
  q.ensureNotJoining .count
  q.countSql.mapError .noLiteral

/-- An attribute of the table of a query: a column under its key, which may be null if the column
may or if its table may be left out. -/
def derivedAttribute (optional : List String) : String × Column → Attribute
  | (key, c) =>
    { name := key, type := c.declared.type
      nullable := c.declared.nullable || c.aliasName ∈ optional }

/-- The rows of a query as a table of other queries, for a projection without inner objects. -/
def asTable (q : Query) (aliasName : String) : Result Table := do
  q.ensureNotJoining .asTable
  match q.effectiveProjection.flat? with
  | none => .error (.misuse .nestedProjection)
  | some columns =>
    let sql ← q.selectSql.mapError .noLiteral
    return { aliasName, origin := .subquery sql,
             attributes := columns.map (derivedAttribute q.optionalAliases) }

end Query

end Discography
