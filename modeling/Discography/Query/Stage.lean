/-!
# Stages of a query

A query is built clause by clause. Its stage says which clause was added last, and so which
operations are legal next: joins with their conditions come first, then the filter, then projection,
order and limits.

## Main definitions

* `Stage`: how far a query is built
* `Operation`: the operations that can be refused at a stage
* `Stage.refusal`: why an operation is refused
-/

namespace Discography

/-- How far a query is built. -/
inductive Stage where
  /-- There is only a table. -/
  | rooted
  /-- A join was added and waits for its condition. -/
  | joining
  /-- The last join has its condition. -/
  | joinFiltered
  /-- The filter was set. -/
  | whereFiltered
  /-- Projection, order or limits were set. -/
  | shaping
  deriving DecidableEq

/-- The name of a stage in diagnostic output. -/
def Stage.name : Stage → String
  | rooted => "Rooted"
  | joining => "Joining"
  | joinFiltered => "JoinFiltered"
  | whereFiltered => "WhereFiltered"
  | shaping => "Shaping"

/-- An operation on a query. -/
inductive Operation where
  | restrict
  | joinOn
  | and
  | or
  | join
  | select
  | orderBy
  | limit
  | offset
  | paginate
  | render
  | count
  | asTable
  | insert
  | update
  | delete
  | truncate
  deriving DecidableEq

/-- The name of an operation in messages. -/
def Operation.name : Operation → String
  | restrict => "where_"
  | joinOn => "on"
  | and => "and"
  | or => "or"
  | join => "join"
  | select => "select"
  | orderBy => "order_by"
  | limit => "limit"
  | offset => "offset"
  | paginate => "paginate"
  | render => "render"
  | count => "count"
  | asTable => "as_table"
  | insert => "insert"
  | update => "update"
  | delete => "delete"
  | truncate => "truncate"

/-- Why a query at this stage refuses an operation. -/
def Stage.refusal : Stage → String
  | joining => "the pending join has no on yet"
  | shaping => "it must come before select, order_by, limit and offset"
  | whereFiltered => "it must come before where"
  | joinFiltered => "the query has joins"
  | rooted => "nothing precedes it"

end Discography
