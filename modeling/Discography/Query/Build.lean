import Discography.Page
import Discography.Query.Basic

/-!
# Building queries

The operations that add a clause to a query. Each returns a new query or refuses; the query that it
was applied to stays as it was. The order of the clauses is that of a statement: joins, each
followed by its condition, then the filter, then projection, order and limits.

## Main definitions

* `Query.restrict`, `Query.joinOn`, `Query.and`, `Query.or`: conditions
* `Query.join`: joins
* `Query.select`, `Query.orderBy`, `Query.thenBy`, `Query.take`, `Query.skip`, `Query.paginate`:
  projection, order and limits
* `Query.Step`: the operations as data; `Query.run` applies a list of them
-/

namespace Discography.Query

/-- The refusal of an operation at the stage of the query. -/
def illegal {α : Type} (q : Query) (op : Operation) : Result α :=
  .error (.misuse (.illegal op q.stage))

/-- Refuses an operation while a join waits for its condition. -/
def ensureNotJoining (q : Query) (op : Operation) : Result Unit :=
  if q.stage = .joining then q.illegal op else .ok ()

/-! ### Conditions -/

/-- Sets the filter, once. -/
def restrict (q : Query) (c : Condition) : Result Query :=
  match q.stage with
  | .rooted | .joinFiltered => do
    return { q with filter := ← c.resolve q.tables, stage := .whereFiltered }
  | .whereFiltered => .error (.misuse .repeatedFilter)
  | _ => q.illegal .restrict

/-- The joins with another condition for the last of them. -/
def setCondition (condition : Option Predicate) : List Join → List Join
  | [] => []
  | [j] => [{ j with condition }]
  | j :: rest => j :: setCondition condition rest

/-- Sets the condition of the join that waits for it; a condition that does not restrict anything is
always true. -/
def joinOn (q : Query) (c : Condition) : Result Query :=
  match q.stage with
  | .joining => do
    let p := (← c.resolve q.tables).getD (.literal true)
    return { q with joins := setCondition (some p) q.joins, stage := .joinFiltered }
  | .rooted => .error (.misuse .priorToJoin)
  | _ => q.illegal .joinOn

/-- A predicate combined with one that may be absent. -/
def combined (combine : Predicate → Predicate → Predicate) (present : Option Predicate)
    (addition : Predicate) : Option Predicate :=
  some (present.elim addition (combine · addition))

/-- Combines a condition with the filter, or else with the condition of the last join. -/
def extendPredicate (q : Query) (op : Operation) (combine : Predicate → Predicate → Predicate)
    (c : Condition) : Result Query :=
  match q.stage with
  | .rooted | .joining => .error (.misuse .priorToJoin)
  | .shaping => q.illegal op
  | .whereFiltered => do
    match ← c.resolve q.tables with
    | none => return q
    | some p => return { q with filter := combined combine q.filter p }
  | .joinFiltered => do
    match ← c.resolve q.tables with
    | none => return q
    | some p =>
      match q.joins.getLast? with
      | none => .error (.misuse .priorToJoin)
      | some j =>
        return { q with joins := setCondition (combined combine j.condition p) q.joins }

/-- Both the condition set last and `c` have to hold. -/
def and (q : Query) (c : Condition) : Result Query := q.extendPredicate .and .and c

/-- The condition set last or `c` has to hold. -/
def or (q : Query) (c : Condition) : Result Query := q.extendPredicate .or .or c

/-! ### Joins -/

/-- Joins a table, which has columns and an alias of its own. -/
def join (q : Query) (kind : JoinKind) (table : Table) : Result Query :=
  match q.stage with
  | .rooted | .joinFiltered =>
    if table.aliasName = q.primary.aliasName then
      .error (.misuse (.aliasOfPrimary table.aliasName))
    else if q.joins.any (·.table.aliasName = table.aliasName) then
      .error (.misuse (.aliasOfJoin table.aliasName))
    else if table.attributes.isEmpty then
      .error (.misuse (.joinWithoutColumns table.aliasName))
    else .ok { q with joins := q.joins ++ [{ kind, table }], stage := .joining }
  | _ => q.illegal .join

/-! ### Projection, order and limits -/

/-- Refuses a column that no table in scope has. -/
def ensureInScope (q : Query) (c : Column) : Result Unit :=
  match (q.table? c.aliasName).bind (·.column? c.name) with
  | some _ => .ok ()
  | none => .error (.misuse (.columnOutOfScope c.aliasName c.name))

mutual

/-- Refuses a projection with an empty object, a repeated key or a column out of scope. -/
def checkProjection (q : Query) : Projection → Result Unit
  | .column c => q.ensureInScope c
  | .object [] => .error (.misuse .emptyProjection)
  | .object (field :: fields) => checkFields q [] (field :: fields)

/-- Checks the fields of an object after those with the keys `seen`. -/
def checkFields (q : Query) (seen : List String) : List (String × Projection) → Result Unit
  | [] => .ok ()
  | (key, p) :: rest =>
    if key ∈ seen then .error (.misuse (.repeatedKey key))
    else do
      checkProjection q p
      checkFields q (seen ++ [key]) rest

end

/-- Sets the projection and drops order and limits. -/
def select (q : Query) (p : Projection) : Result Query := do
  q.ensureNotJoining .select
  q.checkProjection p
  return { q with projection := some p, order := [], limit := none, offset := none,
                  stage := .shaping }

/-- Refuses a term whose column is out of scope. -/
def ensureTerm (q : Query) (t : OrderTerm) : Result Unit :=
  match t.key with
  | .column c => q.ensureInScope c
  | .key _ => .ok ()

/-- Starts the order. -/
def orderBy (q : Query) (t : OrderTerm) : Result Query := do
  q.ensureNotJoining .orderBy
  q.ensureTerm t
  return { q with order := [t], stage := .shaping }

/-- Adds a term to the order. -/
def thenBy (q : Query) (t : OrderTerm) : Result Query := do
  if q.order.isEmpty then .error (.misuse .thenByFirst)
  else
    q.ensureTerm t
    return { q with order := q.order ++ [t] }

/-- Limits the number of rows. -/
def take (q : Query) (n : UInt64) : Result Query := do
  q.ensureNotJoining .limit
  return { q with limit := some n, stage := .shaping }

/-- Leaves out the first rows. -/
def skip (q : Query) (n : UInt64) : Result Query := do
  q.ensureNotJoining .offset
  return { q with offset := some n, stage := .shaping }

/-- Limits the rows to a page. -/
def paginate (q : Query) (r : PageRequest) : Result Query := do
  q.ensureNotJoining .paginate
  return { q with limit := some r.limit, offset := some r.offset, stage := .shaping }

/-! ### Steps -/

/-- An operation that adds a clause. -/
inductive Step where
  | restrict (c : Condition)
  | joinOn (c : Condition)
  | and (c : Condition)
  | or (c : Condition)
  | join (kind : JoinKind) (table : Table)
  | select (p : Projection)
  | orderBy (t : OrderTerm)
  | thenBy (t : OrderTerm)
  | take (n : UInt64)
  | skip (n : UInt64)
  | paginate (r : PageRequest)

/-- The query after an operation. -/
def apply (q : Query) : Step → Result Query
  | .restrict c => q.restrict c
  | .joinOn c => q.joinOn c
  | .and c => q.and c
  | .or c => q.or c
  | .join kind table => q.join kind table
  | .select p => q.select p
  | .orderBy t => q.orderBy t
  | .thenBy t => q.thenBy t
  | .take n => q.take n
  | .skip n => q.skip n
  | .paginate r => q.paginate r

/-- The query after a list of operations, none of which was refused. -/
def run (q : Query) (steps : List Step) : Result Query := steps.foldlM apply q

end Discography.Query
