import Discography.Schema.Table

/-!
# Projections

What a query returns for each row: one column, or an object whose leaves are columns. The leaves in
depth-first order are the columns of the `SELECT` list.

## Main definitions

* `Projection`: the type
* `Projection.leaves`: the columns with their key paths
* `Projection.collapses`: whether an object is null when all its cells are
-/

namespace Discography

/-- What a query returns for each row. -/
inductive Projection where
  | column (c : Column)
  | object (fields : List (String × Projection))

namespace Projection

/-- All columns of a table under their names. -/
def table (t : Table) : Projection := object (t.columns.map fun c => (c.name, column c))

mutual

/-- The columns in depth-first order, each with the keys that lead to it. -/
def leaves : Projection → List (List String × Column)
  | column c => [([], c)]
  | object fields => fieldLeaves fields

/-- The columns of the fields of an object. -/
def fieldLeaves : List (String × Projection) → List (List String × Column)
  | [] => []
  | (key, p) :: rest => p.leaves.map (fun (path, c) => (key :: path, c)) ++ fieldLeaves rest

end

/-- The keys and columns of an object without objects inside. -/
def flat? : Projection → Option (List (String × Column))
  | column _ => none
  | object fields => fields.mapM fun (key, p) =>
    match p with
    | column c => some (key, c)
    | object _ => none

/-- The alias that all columns share; none if they differ or there is no column. -/
def singleAlias? (p : Projection) : Option String :=
  match p.leaves with
  | [] => none
  | (_, c) :: rest => if rest.all (·.2.aliasName = c.aliasName) then some c.aliasName else none

/-- Whether an object is null when all its cells are: its columns come from one of the tables that
may be left out. -/
def collapses (optional : List String) (p : Projection) : Bool :=
  p.singleAlias?.any (· ∈ optional)

end Projection

end Discography
