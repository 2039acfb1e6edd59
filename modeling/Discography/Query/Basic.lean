import Discography.Filter.Condition
import Discography.Query.Projection
import Discography.Query.Stage

/-!
# Queries

A query is a value: a table, the tables joined to it, a filter, a projection, an order and limits,
together with the stage that tells which of these may still be given.

## Main definitions

* `Join`, `OrderTerm`: the parts of a query
* `Query`: the type; `Query.ofTable` starts a query
* `Query.optionalAliases`: the tables that an outer join may leave out
* `Query.effectiveProjection`: the projection of a query, explicit or not
-/

namespace Discography

/-- How a table is joined. -/
inductive JoinKind where
  | inner
  | left
  | right
  deriving DecidableEq

/-- The keywords of a join. -/
def JoinKind.keywords : JoinKind → List String
  | inner => ["INNER", "JOIN"]
  | left => ["LEFT", "JOIN"]
  | right => ["RIGHT", "JOIN"]

/-- A joined table; its condition is absent until it is given. -/
structure Join where
  kind : JoinKind
  table : Table
  condition : Option Predicate := none

/-- The direction of an order. -/
inductive Direction where
  | ascending
  | descending
  deriving DecidableEq

/-- What rows are ordered by. -/
inductive OrderKey where
  | column (c : Column)
  /-- A key of the projection. -/
  | key (name : String)
  deriving DecidableEq

/-- A term of an order. -/
structure OrderTerm where
  key : OrderKey
  direction : Option Direction := none
  deriving DecidableEq

namespace OrderTerm

/-- The term in ascending direction. -/
def ascending (t : OrderTerm) : OrderTerm := { t with direction := some .ascending }

/-- The term in descending direction. -/
def descending (t : OrderTerm) : OrderTerm := { t with direction := some .descending }

/-- The lexemes of a term. -/
def sql (t : OrderTerm) : Sql :=
  let key := match t.key with
    | .column c => c.sql
    | .key name => [.name name]
  match t.direction with
  | none => key
  | some .ascending => key ++ [.space, .word "ASC"]
  | some .descending => key ++ [.space, .word "DESC"]

end OrderTerm

/-- A query. -/
structure Query where
  dialect : Dialect
  primary : Table
  joins : List Join := []
  filter : Option Predicate := none
  projection : Option Projection := none
  order : List OrderTerm := []
  limit : Option UInt64 := none
  offset : Option UInt64 := none
  stage : Stage := .rooted

namespace Query

/-- The query for all rows of a table. -/
def ofTable (dialect : Dialect) (table : Table) : Query where
  dialect := dialect
  primary := table

/-- The tables in scope: the first table and the joined ones in order. -/
def tables (q : Query) : List Table := q.primary :: q.joins.map (·.table)

/-- The table in scope with the given alias. -/
def table? (q : Query) (aliasName : String) : Option Table :=
  q.tables.find? (·.aliasName = aliasName)

/-- The aliases of tables that may be left out, after further joins onto the tables `earlier`, some
of which may be left out already. -/
def optionalFrom (earlier optional : List String) : List Join → List String
  | [] => optional
  | j :: rest =>
    optionalFrom (earlier ++ [j.table.aliasName])
      (match j.kind with
        | .inner => optional
        | .left => optional ++ [j.table.aliasName]
        | .right => optional ++ earlier)
      rest

/-- The aliases of the tables that may be left out of a row: a left join leaves out the table that
it joins, and a right join every table before it. -/
def optionalAliases (q : Query) : List String := optionalFrom [q.primary.aliasName] [] q.joins

/-- The projection that was given. Without one a query returns the columns of its table, and a query
over joined tables returns an object for each table under its alias. -/
def effectiveProjection (q : Query) : Projection :=
  match q.projection with
  | some p => p
  | none =>
    if q.joins.isEmpty then .table q.primary
    else .object (q.tables.map fun t => (t.aliasName, .table t))

/-- The form that diagnostic output shows. -/
def describe (q : Query) : String :=
  "Query \x7b state: QueryState \x7b dialect: " ++ Text.quote q.dialect.name ++ ", primary: " ++
    Text.quote q.primary.aliasName ++ ", joins: " ++ toString q.joins.length ++ ", stage: " ++
    q.stage.name ++ " \x7d \x7d"

end Query

end Discography
