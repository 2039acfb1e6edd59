import Discography.Proofs.Catalogue.Statements
import Discography.Proofs.Database.Server
import Discography.Proofs.Query.Steps

/-!
# The relations of the catalogue

The schema of the catalogue as a database enforces it, and what the statements of the catalogue do
to a store that keeps to it.

## Main definitions

* `Catalogue.relations`: the schema

## Main results

* `Catalogue.take_sqliteSchema`: the schema is the one that is declared
* `Query.Uniform.execute`, `Catalogue.execute_delete`, `Catalogue.execute_update`,
  `Catalogue.query_count`: what statements do
-/

namespace Discography

namespace Catalogue

/-! ### The schema -/

/-- A table whose rows have identifiers. -/
def identified (t : Table) : Relation := { table := t, key := ["id"] }

/-- The artists. -/
def artistRelation : Relation := identified artists

/-- The albums. -/
def albumRelation : Relation := identified albums

/-- The tracks. -/
def trackRelation : Relation := { identified tracks with defaults := [("explicit", .integer 0)] }

/-- The playlists. -/
def playlistRelation : Relation := identified playlists

/-- The entries of playlists. They go with their playlist and with their track. -/
def entryRelation : Relation where
  table := playlistTracks
  key := ["playlist_id", "position"]
  cascading := ["playlist_id", "track_id"]

/-- The schema of the catalogue. -/
def relations : List Relation :=
  [artistRelation, albumRelation, trackRelation, playlistRelation, entryRelation]

/-- The type of a column in SQLite. -/
def sqliteType : ColumnType → String
  | .string => "TEXT"
  | .binary => "BLOB"
  | .number | .boolean => "INTEGER"

/-- The declaration of a column in SQLite. -/
def sqliteColumn (r : Relation) (a : Attribute) : String :=
  let clauses := [
    if r.key = [a.name] then some "PRIMARY KEY" else none,
    if a.nullable then none else some "NOT NULL",
    (r.defaults.lookup a.name).bind fun cell =>
      cell.integer?.map fun i => "DEFAULT " ++ toString i.toInt,
    a.references.map fun ref => "REFERENCES " ++ ref.table ++ "(" ++ ref.column ++ ")",
    if a.name ∈ r.cascading then some "ON DELETE CASCADE" else none]
  " ".intercalate (a.name :: sqliteType a.type :: clauses.filterMap id)

/-- The declaration of a relation in SQLite. A key of several columns has a clause of its own. -/
def sqliteTable (r : Relation) : String :=
  createTable r.name (r.table.attributes.map (sqliteColumn r) ++
    if r.key.length < 2 then [] else ["PRIMARY KEY (" ++ ", ".intercalate r.key ++ ")"])

/-- The schema is the one that the catalogue declares. -/
theorem take_sqliteSchema : sqliteSchema.take 5 = relations.map sqliteTable := by
  decide +kernel

end Catalogue

/-! ### Insertions -/

/-- What a text inserts is inserted into the store. -/
theorem Query.Uniform.execute {schema : List Relation} {r : Relation} {columns : List String}
    {rows : List Assignments} (h : Uniform r.table columns rows) {d : Dialect} (hd : d.Lexical)
    {segments : List String} (horigin : r.table.origin = .path segments)
    (hr : Store.relation? schema (Token.path segments) = some r) {sql : Sql}
    (hsql : (ofTable d r.table).insertMany rows = .ok ⟨[sql]⟩) (s : Store schema) :
    s.execute d sql.text = s.insert r.name (rows.map fun row => r.tuple row.get?) := by
  obtain ⟨i, hread, htarget, hrows⟩ := h.read_insertMany hd horigin hsql
  rw [Store.execute_of_insertion hread (by rw [htarget, hr]), hrows, List.map_map]
  rfl

/-! ### Rows with an identifier -/

/-- The row has the identifier in the column. -/
def Tuple.hasId (column : String) (id : Identifier) (row : Tuple) : Bool :=
  decide (row column = .blob id.bytes)

namespace Catalogue

/-- The condition that a column has an identifier, as it is read. -/
def idFormula (c : Column) (id : Identifier) : Formula :=
  .comparison ⟨[.name c.aliasName, .punctuation ".", .name c.name], .eq, [.blob id.bytes]⟩

/-- The query for the rows in which a column has an identifier. -/
def idQuery (d : Dialect) (t : Table) (a : Attribute) (id : Identifier) : Query :=
  { Query.ofTable d t with
    filter := some (.compare (.column (t.columnOf a)) .eq (.literal (toValue id)))
    stage := .whereFiltered }

variable {d : Dialect} {t : Table} {a : Attribute} {id : Identifier}

theorem formula_idQuery :
    Query.formula d (idQuery d t a id).filter = some (idFormula (t.columnOf a) id) := rfl

theorem selects_idFormula (treatment : Treatment) (target : List Token) (c : Column) :
    RowStatement.selects Comparison.truth
      ⟨treatment, target, some (.name c.aliasName), some (idFormula c id)⟩ =
        Tuple.hasId c.name id := by
  funext row
  have hleft : row.operand (some (.name c.aliasName))
      [.name c.aliasName, .punctuation ".", .name c.name] = some (row c.name) := by
    simp [Tuple.operand]
  have hright : row.operand (some (.name c.aliasName)) [.blob id.bytes] = some (.blob id.bytes) :=
    rfl
  rw [RowStatement.selects, Option.elim_some, idFormula, Formula.eval, Comparison.truth, hleft,
    hright, Tuple.hasId]
  by_cases hcell : row c.name = .blob id.bytes
  · simp [hcell, Truth.ofBool]
  · by_cases hnull : row c.name = .null <;> simp [hcell, hnull, Truth.ofBool]

variable {schema : List Relation} {r : Relation} {segments : List String} {sql : Sql}

/-- A deletion deletes the rows that have the identifier. -/
theorem execute_delete (hd : d.Lexical) (hrows : d.PlainRows)
    (horigin : r.table.origin = .path segments)
    (hr : Store.relation? schema (Token.path segments) = some r)
    (hsql : (idQuery d r.table a id).delete = .ok ⟨[sql]⟩) (s : Store schema) :
    s.execute d sql.text = s.delete r.name (Tuple.hasId a.name id) := by
  obtain ⟨-, hs⟩ := Query.delete_eq_ok.1 hsql
  obtain ⟨sql', hsql', hbatch⟩ := Statement.ofCommands_singleton_eq_ok.1 hs
  obtain rfl : sql = sql' := by simpa using hbatch
  have hread := Command.read_delete hd hrows horigin hsql'
  rw [formula_idQuery] at hread
  rw [Store.execute_of_rowStatement hread, Store.runRows]
  simp only [hr]
  exact congrArg (s.delete r.name) (selects_idFormula .delete _ (r.table.columnOf a))

/-- An update assigns to the rows that have the identifier. -/
theorem execute_update (hd : d.Lexical) (hrows : d.PlainRows)
    (horigin : r.table.origin = .path segments)
    (hr : Store.relation? schema (Token.path segments) = some r) {assigned : Assignments}
    (hsql : (idQuery d r.table a id).update assigned = .ok ⟨[sql]⟩) (s : Store schema) :
    s.execute d sql.text = s.update r.name (Tuple.hasId a.name id)
      (assigned.entries.map fun e => (e.1, e.2.stored)) := by
  obtain ⟨-, hassigned, hs⟩ := Query.update_eq_ok.1 hsql
  obtain ⟨sql', hsql', hbatch⟩ := Statement.ofCommands_singleton_eq_ok.1 hs
  obtain rfl : sql = sql' := by simpa using hbatch
  have hread := Command.read_update hd hrows horigin hassigned hsql'
  rw [formula_idQuery] at hread
  rw [Store.execute_of_rowStatement hread, Store.runRows]
  simp only [hr]
  exact congrArg (s.update r.name · _) (selects_idFormula (.update _) _ (r.table.columnOf a))

/-- A count is the number of the rows that have the identifier. -/
theorem query_count (hd : d.Lexical) (hrows : d.PlainRows)
    (horigin : r.table.origin = .path segments)
    (hr : Store.relation? schema (Token.path segments) = some r)
    (hsql : (idQuery d r.table a id).renderCount = .ok sql) (s : Store schema) :
    s.query d sql.text = .ok [[.integer (Int64.ofNat
      ((s.contents r.name).filter (Tuple.hasId a.name id)).length)]] := by
  have hread : RowStatement.read d sql.text = some ⟨.count, Token.path segments,
      some (.name r.table.aliasName), some (idFormula (r.table.columnOf a) id)⟩ :=
    Query.read_count (q := idQuery d r.table a id) hd hrows horigin rfl
      (Query.renderCount_eq_ok.1 hsql).2
  rw [Store.query_of_rowStatement hread hr, RowStatement.selected]
  exact congrArg (fun p => Except.ok [[Cell.integer
    (Int64.ofNat ((s.contents r.name).filter p).length)]])
      (selects_idFormula .count _ (r.table.columnOf a))

end Catalogue

end Discography
