import Discography.Query.Render

/-!
# Changes of a table

Insertions, updates, deletions and truncations. A query that is to change rows has one table of the
database, no joins, and no projection, order or limit; a filter restricts updates and deletions.

An insertion of several rows is one command where the dialect lets `DEFAULT` stand for a cell, or
where all rows assign the same columns. Otherwise there is one command for each set of assigned
columns, in the order in which the sets appear, and one for each row that assigns nothing.

## Main definitions

* `Assignments`: the cells of an inserted row or of an update
* `Command`: a change of a table
* `Statement`: the texts of the commands of a change
* `Query.insert`, `Query.insertMany`, `Query.update`, `Query.delete`, `Query.truncate`
-/

namespace Discography

/-- Columns with the values assigned to them, each column once. -/
structure Assignments where
  entries : List (String × Value)
  nodup_columns : (entries.map Prod.fst).Nodup

namespace Assignments

/-- No assignment. -/
def empty : Assignments := ⟨[], by simp⟩

/-- The entries with another value for a column that they assign. -/
def replace (column : String) (v : Value) (entries : List (String × Value)) :
    List (String × Value) :=
  entries.map fun e => if e.1 = column then (column, v) else e

theorem map_fst_replace (column : String) (v : Value) (entries : List (String × Value)) :
    (replace column v entries).map Prod.fst = entries.map Prod.fst := by
  simp only [replace, List.map_map]
  refine List.map_congr_left fun e _ => ?_
  simp only [Function.comp_apply]
  split <;> simp_all

/-- Assigns a value to a column; the value of a column that is assigned already is replaced. -/
def set (a : Assignments) (column : String) (v : Value) : Assignments :=
  if h : column ∈ a.entries.map Prod.fst then
    ⟨replace column v a.entries, by rw [map_fst_replace]; exact a.nodup_columns⟩
  else
    ⟨a.entries ++ [(column, v)], by
      rw [List.map_append, List.nodup_append]
      refine ⟨a.nodup_columns, by simp, fun x hx y hy => ?_⟩
      obtain rfl : y = column := by simpa using hy
      exact fun e => h (e ▸ hx)⟩

/-- The assignments made one after the other. -/
def ofList (entries : List (String × Value)) : Assignments :=
  entries.foldl (fun a e => a.set e.1 e.2) empty

/-- The value assigned to a column. -/
def get? (a : Assignments) (column : String) : Option Value := a.entries.lookup column

/-- The assigned columns in order. -/
def columns (a : Assignments) : List String := a.entries.map Prod.fst

/-- Whether nothing is assigned. -/
def isEmpty (a : Assignments) : Bool := a.entries.isEmpty

/-- Whether a column is assigned. -/
def assigns (a : Assignments) (column : String) : Bool := (a.get? column).isSome

end Assignments

/-- A change of a table. -/
inductive Command where
  /-- Inserts rows of cells for the given columns; an absent cell is the default of its column. -/
  | insert (target : Origin) (columns : List String) (rows : List (List (Option Value)))
  /-- Inserts a row of defaults. -/
  | insertDefaults (target : Origin)
  | update (target : Table) (assignments : Assignments) (filter : Option Predicate)
  | delete (target : Table) (filter : Option Predicate)
  | truncate (target : Origin)

namespace Command

/-- The lexemes of a cell of an inserted row. -/
def cellSql (style : TextStyle) : Option Value → Except NoLiteral Sql
  | some v => v.sql style
  | none => .ok [.word "DEFAULT"]

/-- The lexemes of an inserted row. -/
def rowSql (style : TextStyle) (cells : List (Option Value)) : Except NoLiteral Sql := do
  return Sql.parens (Sql.commas (← cells.mapM (cellSql style)))

/-- The lexemes of an assignment. -/
def assignmentSql (style : TextStyle) (e : String × Value) : Except NoLiteral Sql := do
  return [.name e.1, .space, .symbol "=", .space] ++ (← e.2.sql style)

/-- The lexemes of a command. -/
def sql (d : Dialect) : Command → Except NoLiteral Sql
  | insert target columns rows => do
    let rows ← rows.mapM (rowSql d.style)
    return Sql.words ["INSERT", "INTO"] ++ .space :: target.sql ++
      .space :: Sql.parens (Sql.commas (columns.map fun c => [.name c])) ++
      Sql.clause ["VALUES"] (Sql.commas rows)
  | insertDefaults target =>
    .ok (Sql.words ["INSERT", "INTO"] ++ .space :: target.sql ++
      .space :: Sql.words ["DEFAULT", "VALUES"])
  | update target assignments filter => do
    let assignments ← assignments.entries.mapM (assignmentSql d.style)
    return .word "UPDATE" :: .space :: target.targetSql ++
      Sql.clause ["SET"] (Sql.commas assignments) ++ (← Query.filterSql d filter)
  | delete target filter => do
    return Sql.words ["DELETE", "FROM"] ++ .space :: target.targetSql ++
      (← Query.filterSql d filter)
  | truncate target => .ok (d.truncate target.sql)

end Command

/-- The statements of a change, in the order in which they run. -/
structure Statement where
  batch : List Sql

namespace Statement

/-- The statements of commands. -/
def ofCommands (d : Dialect) (commands : List Command) : Result Statement :=
  ((commands.mapM (Command.sql d)).map Statement.mk).mapError .noLiteral

/-- The texts of the statements. -/
def texts (s : Statement) : List String := s.batch.map Sql.text

/-- The texts with semicolons between them. -/
def text (s : Statement) : String := "; ".intercalate s.texts

end Statement

namespace Query

/-- The columns that some row assigns, in the order in which they appear. -/
def assignedColumns (rows : List Assignments) : List String :=
  (rows.flatMap Assignments.columns).eraseDups

/-- Adds a row to the group with its set of columns, or starts one. -/
def addToGroup (columns : List String) (row : Assignments) :
    List (List String × List Assignments) → List (List String × List Assignments)
  | [] => [(columns, [row])]
  | (set, rows) :: rest =>
    if set = columns then (set, rows ++ [row]) :: rest
    else (set, rows) :: addToGroup columns row rest

/-- The rows grouped by the columns of `all` that they assign, in the order of appearance. -/
def groupRows (all : List String) (rows : List Assignments) :
    List (List String × List Assignments) :=
  rows.foldl (fun groups row => addToGroup (all.filter row.assigns) row groups) []

/-- The commands that insert rows for the given columns. -/
def insertGroup (q : Query) (columns : List String) (rows : List Assignments) : List Command :=
  if columns.isEmpty && !q.dialect.defaultInRows then
    rows.map fun _ => .insertDefaults q.primary.origin
  else [.insert q.primary.origin columns (rows.map fun row => columns.map row.get?)]

/-- The commands that insert rows. -/
def insertCommands (q : Query) (rows : List Assignments) : List Command :=
  let columns := assignedColumns rows
  let complete := rows.all fun row => columns.all row.assigns
  if q.dialect.defaultInRows || (complete && !columns.isEmpty) then q.insertGroup columns rows
  else (groupRows columns rows).flatMap fun (set, members) => q.insertGroup set members

/-- Refuses to change the rows of a query. -/
def ensureTarget (q : Query) (op : Operation) : Result Unit :=
  if q.primary.origin.isSubquery then .error (.misuse (.subqueryTarget op q.primary.aliasName))
  else .ok ()

/-- Refuses an assignment to a column that the table does not have. -/
def ensureAssignable (q : Query) (column : String) : Result Unit :=
  match q.primary.column? column with
  | some _ => .ok ()
  | none => .error (.misuse (.unknownAssignment column q.primary.aliasName))

/-- Inserts rows. -/
def insertMany (q : Query) (rows : List Assignments) : Result Statement := do
  if q.stage ≠ .rooted then q.illegal .insert
  else
    q.ensureTarget .insert
    if rows.isEmpty then .error (.misuse .noRows)
    else
      (rows.flatMap Assignments.columns).forM q.ensureAssignable
      Statement.ofCommands q.dialect (q.insertCommands rows)

/-- Inserts a row. -/
def insert (q : Query) (row : Assignments) : Result Statement := q.insertMany [row]

/-- Refuses to change rows unless the query has one table of the database and nothing but a filter
beside it. -/
def ensureFilteredTarget (q : Query) (op : Operation) : Result Unit :=
  match q.stage with
  | .rooted | .whereFiltered | .joinFiltered =>
    if q.joins.isEmpty then q.ensureTarget op else .error (.unsupported (.overJoins op))
  | _ => q.illegal op

/-- Updates the rows that pass the filter. -/
def update (q : Query) (assignments : Assignments) : Result Statement := do
  q.ensureFilteredTarget .update
  if assignments.isEmpty then .error (.misuse .noAssignments)
  else Statement.ofCommands q.dialect [.update q.primary assignments q.filter]

/-- Deletes the rows that pass the filter. -/
def delete (q : Query) : Result Statement := do
  q.ensureFilteredTarget .delete
  Statement.ofCommands q.dialect [.delete q.primary q.filter]

/-- Deletes all rows. -/
def truncate (q : Query) : Result Statement := do
  if q.stage ≠ .rooted then q.illegal .truncate
  else
    q.ensureTarget .truncate
    Statement.ofCommands q.dialect [.truncate q.primary.origin]

end Query

end Discography
