import Discography.Proofs.Query.DefaultProjection

/-!
# Tables that store their alias in every column

A table can be kept with its columns, each of which has a copy of the alias and of the origin. What
makes such a table has to write the copies: a declaration, another alias, and a query that is used
as a table. If one of them left an old copy behind, the column would be looked up in another table.
None does, so this layout holds nothing that `Table` does not: each step on it is the step on
`Table`, and what it arrives at can be selected as a whole wherever it is in scope.

The columns of a query may come with copies of any kind, since a projection is compared with the
tables in scope by alias and name only.

## Main definitions

* `StoredTable`: tables with their columns
* `StoredTable.declare`, `StoredTable.withAlias`, `Query.storedTable`: what makes them
* `StoredTable.Built`: the tables that these make in any order
* `StoredTable.Uniform`: the copies in the columns agree with the table
* `Table.stored`: the layout of a table with its columns

## Main results

* `StoredTable.uniform_iff`: uniform are the layouts of tables
* `Query.storedTable_eq`: a query that is used as a table leaves none of the copies that it finds
* `StoredTable.Built.exists_table`: what is made is the layout of a table
* `StoredTable.uniform_of_built`: uniformity, the laws of aliases, and selection
-/

namespace Discography

/-- A table with its columns, each of which repeats the alias and the origin. -/
structure StoredTable where
  aliasName : String
  origin : Origin
  columns : List Column
  deriving DecidableEq

namespace StoredTable

/-- A table of the database; dots separate the segments of its name, and the last segment is its
alias. -/
def declare (name : String) (attributes : List Attribute) : StoredTable :=
  let origin : Origin := .path ((name.toList.splitOn '.').map String.ofList)
  let aliasName := origin.lastSegment?.getD name
  { aliasName, origin, columns := attributes.map fun declared => { origin, aliasName, declared } }

/-- The table of a statement, with columns that come from other tables. -/
def ofSubquery (aliasName : String) (sql : Sql) (columns : List Column) : StoredTable :=
  let origin : Origin := .subquery sql
  { aliasName, origin, columns := columns.map fun c => { c with origin, aliasName } }

/-- The same table under another alias. -/
def withAlias (t : StoredTable) (aliasName : String) : StoredTable :=
  { t with aliasName, columns := t.columns.map fun c => { c with aliasName } }

/-- All columns of a table under their names. -/
def projection (t : StoredTable) : Projection :=
  .object (t.columns.map fun c => (c.name, .column c))

/-- The copies in the columns agree with the table. -/
structure Uniform (t : StoredTable) : Prop where
  aliasName : ∀ c ∈ t.columns, c.aliasName = t.aliasName
  origin : ∀ c ∈ t.columns, c.origin = t.origin

end StoredTable

namespace Query

/-- The column for a column of the projection under its key. The copies are those that it comes
with. -/
def derivedColumn (optional : List String) : String × Column → Column
  | (key, c) => { c with declared := derivedAttribute optional (key, c) }

/-- The rows of a query as a table of other queries, for a projection without inner objects. -/
def storedTable (q : Query) (aliasName : String) : Result StoredTable := do
  q.ensureNotJoining .asTable
  match q.effectiveProjection.flat? with
  | none => .error (.misuse .nestedProjection)
  | some columns =>
    let sql ← q.selectSql.mapError .noLiteral
    return .ofSubquery aliasName sql (columns.map (derivedColumn q.optionalAliases))

end Query

/-- The tables that declarations, aliases and queries make in any order. -/
inductive StoredTable.Built : StoredTable → Prop
  | declare (name : String) (attributes : List Attribute) : Built (.declare name attributes)
  | withAlias {t : StoredTable} (aliasName : String) : Built t → Built (t.withAlias aliasName)
  | asTable {q : Query} {aliasName : String} {t : StoredTable} :
    q.storedTable aliasName = .ok t → Built t

/-! ### The layout of a table -/

namespace Table

/-- The table with its columns. -/
def stored (t : Table) : StoredTable := ⟨t.aliasName, t.origin, t.columns⟩

theorem uniform_stored (t : Table) : t.stored.Uniform where
  aliasName := List.forall_mem_map.mpr fun _ _ => rfl
  origin := List.forall_mem_map.mpr fun _ _ => rfl

theorem projection_stored (t : Table) : t.stored.projection = .table t := rfl

theorem stored_named (name : String) (attributes : List Attribute) :
    (named name attributes).stored = .declare name attributes := rfl

theorem stored_withAlias (t : Table) (aliasName : String) :
    (t.withAlias aliasName).stored = t.stored.withAlias aliasName := by
  simp [stored, StoredTable.withAlias, withAlias, columns, columnOf]

end Table

namespace StoredTable

/-- Uniform are the layouts of tables. -/
theorem uniform_iff {t : StoredTable} : t.Uniform ↔ ∃ table : Table, table.stored = t := by
  constructor
  · intro h
    -- with both copies as in the table, a column is what was declared of it
    have hcolumns : t.columns.map (fun c => ⟨t.origin, t.aliasName, c.declared⟩) = t.columns := by
      refine (List.map_congr_left fun c hc => ?_).trans t.columns.map_id
      rw [← h.origin c hc, ← h.aliasName c hc, id]
    refine ⟨⟨t.aliasName, t.origin, t.columns.map (·.declared)⟩, ?_⟩
    simp only [Table.stored, Table.columns, List.map_map, Function.comp_def, Table.columnOf,
      hcolumns]
  · rintro ⟨table, rfl⟩
    exact table.uniform_stored

/-- Whatever copies the columns come with, the table of a statement has its own in all of them. -/
theorem stored_ofSubquery (aliasName : String) (sql : Sql) (columns : List Column) :
    (Table.mk aliasName (.subquery sql) (columns.map (·.declared))).stored =
      ofSubquery aliasName sql columns := by
  simp [Table.stored, Table.columns, Table.columnOf, ofSubquery]

end StoredTable

/-- A query that is used as a table is the layout of the table that it is. -/
theorem Query.storedTable_eq (q : Query) (aliasName : String) :
    q.storedTable aliasName = (q.asTable aliasName).map Table.stored := by
  have hattributes (columns : List (String × Column)) :
      (columns.map (derivedColumn q.optionalAliases)).map (·.declared) =
        columns.map (derivedAttribute q.optionalAliases) := by
    rw [List.map_map]
    rfl
  rw [storedTable, asTable]
  -- both refuse for the same reasons and in the same order
  cases q.ensureNotJoining .asTable with
  | error e => rfl
  | ok _ =>
    cases q.effectiveProjection.flat? with
    | none => rfl
    | some columns =>
      cases q.selectSql with
      | error e => rfl
      | ok sql =>
        refine congrArg Except.ok ?_
        rw [← StoredTable.stored_ofSubquery, hattributes]

namespace StoredTable

variable {t : StoredTable}

/-! ### What is made -/

/-- Each step makes the layout of the table that the same step makes of a table. -/
theorem Built.exists_table (ht : t.Built) : ∃ table : Table, table.stored = t := by
  induction ht with
  | declare name attributes => exact ⟨.named name attributes, Table.stored_named name attributes⟩
  | withAlias aliasName _ ih =>
    obtain ⟨table, rfl⟩ := ih
    exact ⟨table.withAlias aliasName, table.stored_withAlias aliasName⟩
  | @asTable q aliasName t h =>
    rw [Query.storedTable_eq, Outcome.map_eq_ok] at h
    obtain ⟨table, -, htable⟩ := h
    exact ⟨table, htable⟩

theorem map_declared_withAlias (t : StoredTable) (aliasName : String) :
    (t.withAlias aliasName).columns.map (·.declared) = t.columns.map (·.declared) := by
  rw [withAlias, List.map_map]
  rfl

/-- Only the last alias counts. -/
theorem withAlias_withAlias (t : StoredTable) (first last : String) :
    (t.withAlias first).withAlias last = t.withAlias last := by
  simp only [withAlias, List.map_map, Function.comp_def]

/-- A uniform table has its alias already. -/
theorem Uniform.withAlias_self (ht : t.Uniform) : t.withAlias t.aliasName = t := by
  obtain ⟨table, rfl⟩ := uniform_iff.mp ht
  exact (table.stored_withAlias table.aliasName).symm

variable {q : Query}

/-- The copies in the columns lead to the table, since no two tables in scope share an alias. -/
theorem table?_of_mem_columns (hq : q.Invariant) (hscope : t ∈ q.tables.map Table.stored) :
    ∀ c ∈ t.columns, (q.table? c.aliasName).map Table.stored = some t := by
  obtain ⟨table, hmem, rfl⟩ := List.mem_map.mp hscope
  intro c hc
  rw [table.uniform_stored.aliasName c hc]
  exact congrArg (Option.map Table.stored) (Query.table?_of_mem hq.nodup_aliases hmem)

/-- A query accepts all columns of a table in scope if there are any, with distinct names. -/
theorem select_projection_iff (hq : q.Invariant) (hstage : q.stage ≠ .joining)
    (hscope : t ∈ q.tables.map Table.stored) :
    (∃ r, q.select t.projection = .ok r) ↔
      t.columns ≠ [] ∧ (t.columns.map (·.name)).Nodup := by
  obtain ⟨table, hmem, rfl⟩ := List.mem_map.mp hscope
  have hselect : (∃ r, q.select table.stored.projection = .ok r) ↔ table.Selectable := by
    simp only [Table.projection_stored, Query.select_eq_ok, hstage, ne_eq, not_false_eq_true,
      true_and, exists_and_left, exists_eq, and_true]
    rw [Query.checkProjection_eq_ok_iff hq.nodup_aliases, Projection.valid_table_iff hmem]
  have hne : table.columns = [] ↔ table.attributes = [] := List.map_eq_nil_iff
  have hnames : table.columns.map (·.name) = table.attributes.map (·.name) := by
    rw [Table.columns, List.map_map]
    rfl
  rw [hselect, Table.stored, hnames, ne_eq, hne]
  exact ⟨fun h => ⟨h.ne_nil, h.nodup⟩, fun h => ⟨h.1, h.2⟩⟩

/-- **Uniform tables.** However a table was made, its alias and its origin are those of all its
columns. Another alias keeps the origin and what was declared of each column, only the last alias
counts, and the alias that a table has anyway changes nothing. So in every query that has the table
in scope its columns are found in no other table, and while no join is open all of them can be
selected if there are any and their names are distinct. -/
theorem uniform_of_built (ht : t.Built) :
    t.Uniform ∧
    (∀ aliasName : String, (t.withAlias aliasName).Uniform ∧
      (t.withAlias aliasName).aliasName = aliasName ∧
      (t.withAlias aliasName).origin = t.origin ∧
      (t.withAlias aliasName).columns.map (·.declared) = t.columns.map (·.declared)) ∧
    (∀ first last : String, (t.withAlias first).withAlias last = t.withAlias last) ∧
    t.withAlias t.aliasName = t ∧
    ∀ (d : Dialect) (primary : Table) (steps : List Query.Step) (q : Query),
      (Query.ofTable d primary).run steps = .ok q → t ∈ q.tables.map Table.stored →
        (∀ c ∈ t.columns, (q.table? c.aliasName).map Table.stored = some t) ∧
        (q.stage ≠ .joining → ((∃ r, q.select t.projection = .ok r) ↔
          t.columns ≠ [] ∧ (t.columns.map (·.name)).Nodup)) := by
  have huniform {s : StoredTable} (hs : s.Built) : s.Uniform := uniform_iff.mpr hs.exists_table
  refine ⟨huniform ht, fun aliasName => ?_, t.withAlias_withAlias, (huniform ht).withAlias_self,
    fun d primary steps q hrun hscope => ?_⟩
  · exact ⟨huniform (ht.withAlias aliasName), rfl, rfl, t.map_declared_withAlias aliasName⟩
  · have hq : q.Invariant := (Query.invariant_ofTable d primary).run hrun
    exact ⟨table?_of_mem_columns hq hscope, fun hstage => select_projection_iff hq hstage hscope⟩

/-- A query accepts a column of an older table if the alias and the name fit. Used as a table under
another alias and joined, it has its own alias and its own origin in that column, which can be
selected. -/
theorem uniform_of_built_foreign_column :
    ∃ (tracks : Table) (inner outer : Query) (t : StoredTable),
      tracks.origin = .path ["tracks"] ∧
      (Query.ofTable .sqlite tracks).select
        (.object [("key", .column ⟨.path ["old"], "t", { name := "id", type := .binary }⟩)]) =
          .ok inner ∧
      inner.storedTable "s" = .ok t ∧ t.withAlias "u" ∈ outer.tables.map Table.stored ∧
      (t.withAlias "u").columns = [⟨t.origin, "u", { name := "key", type := .binary }⟩] ∧
      ∃ r, outer.select (t.withAlias "u").projection = .ok r := by
  let id : Attribute := { name := "id", type := .binary }
  let key : Attribute := { name := "key", type := .binary }
  let tracks : Table := ⟨"t", .path ["tracks"], [id]⟩
  let derived (sql : Sql) : StoredTable := ⟨"s", .subquery sql, [⟨.subquery sql, "s", key⟩]⟩
  obtain ⟨inner, sql, hinner, hderived⟩ : ∃ (inner : Query) (sql : Sql),
      (Query.ofTable .sqlite tracks).select (.object [("key", .column ⟨.path ["old"], "t", id⟩)]) =
        .ok inner ∧ inner.storedTable "s" = .ok (derived sql) := ⟨_, _, rfl, rfl⟩
  -- the table that the layout under its second alias stands for
  let joined : Table := ⟨"u", .subquery sql, [key]⟩
  obtain ⟨outer, houter, hstage, htables⟩ : ∃ outer : Query,
      (Query.ofTable .sqlite tracks).run [.join .inner joined, .joinOn (.pattern [])] = .ok outer ∧
        outer.stage ≠ .joining ∧ outer.tables = [tracks, joined] := ⟨_, rfl, nofun, rfl⟩
  have hscope : (derived sql).withAlias "u" ∈ outer.tables.map Table.stored := by
    rw [htables]
    exact List.mem_cons_of_mem _ List.mem_cons_self
  obtain ⟨-, -, -, -, hselect⟩ := uniform_of_built ((Built.asTable hderived).withAlias "u")
  refine ⟨tracks, inner, outer, derived sql, rfl, hinner, hderived, hscope, rfl, ?_⟩
  obtain ⟨-, hiff⟩ := hselect .sqlite tracks _ outer houter hscope
  exact (hiff hstage).mpr ⟨nofun, List.nodup_singleton _⟩

end StoredTable

end Discography
