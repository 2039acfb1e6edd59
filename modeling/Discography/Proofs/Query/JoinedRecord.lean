import Discography.Proofs.Query.OuterJoin
import Discography.Proofs.Query.Rows

/-!
# Records of joined tables

Without a projection of its own, a query over joined tables returns an object for each table. In the
record of a row the object of a table that was left out is null, and a table that contributed a cell
that is not null has its object, with all its cells.

## Main definitions

* `JoinedRow.cells`: the cells of a row under the columns of tables
* `Table.fields`: the object of a table

## Main results

* `Projection.record_table`: when null takes the place of the object of a table
* `Query.optionalAliases_iff_leftOut`: the tables that may be left out are those that are left out
  somewhere, and records show which are
-/

namespace Discography

/-- The cells of a row under the columns of a table, null for a table that was left out. -/
def JoinedRow.cellsOf (row : JoinedRow) (t : Table) : Row :=
  (row t.aliasName).getD (List.replicate t.attributes.length .null)

/-- The cells of a row under the columns of all tables in order. -/
def JoinedRow.cells (row : JoinedRow) (tables : List Table) : Row := tables.flatMap row.cellsOf

/-- The fields for the cells of a row of a table, under the names of its columns. -/
def Table.fields (t : Table) (cells : Row) : List (String × Record) :=
  List.zipWith (fun a cell => (a.name, .value (cell.toValue a.type))) t.attributes cells

namespace Projection

variable {optional : List String} {t : Table} {cells : Row}

theorem leaves_table (t : Table) : (table t).leaves = t.columns.map fun c => ([c.name], c) := by
  rw [table, leaves]
  induction t.columns with
  | nil => rfl
  | cons c columns ih => simp [fieldLeaves, leaves, ih]

theorem length_leaves_table (t : Table) : (table t).leaves.length = t.attributes.length := by
  rw [leaves_table, List.length_map, Table.columns, List.length_map]

/-- The object of a table collapses if the table has columns and may be left out. -/
theorem collapses_table :
    collapses optional (table t) = true ↔ t.attributes ≠ [] ∧ t.aliasName ∈ optional := by
  rw [collapses_iff, leaves_table]
  have halias : ∀ leaf ∈ t.columns.map (fun c => ([c.name], c)),
      leaf.2.aliasName = t.aliasName := by
    intro leaf hleaf
    obtain ⟨c, hc, rfl⟩ := List.mem_map.1 hleaf
    obtain ⟨a, -, rfl⟩ := List.mem_map.1 hc
    rfl
  constructor
  · rintro ⟨hne, aliasName, hmem, hall⟩
    obtain ⟨leaf, hleaf⟩ := List.exists_mem_of_ne_nil _ hne
    rw [← hall leaf hleaf, halias leaf hleaf] at hmem
    exact ⟨by simpa [Table.columns] using hne, hmem⟩
  · rintro ⟨hne, hmem⟩
    exact ⟨by simpa [Table.columns] using hne, t.aliasName, hmem, halias⟩

theorem recordFields_table (h : cells.length = t.attributes.length) :
    recordFields optional (t.columns.map fun c => (c.name, column c)) cells = t.fields cells := by
  have hlength : cells.length = (t.attributes.map fun a => (a.name, t.columnOf a)).length := by
    rw [h, List.length_map]
  have hcolumns := recordFields_columns optional _ hlength
  rw [List.map_map, List.zipWith_map_left] at hcolumns
  rw [Table.columns, List.map_map]
  exact hcolumns

/-- Null takes the place of the object of a table that may be left out if all its cells are null,
and of no other object of a table. -/
theorem record_table (h : cells.length = t.attributes.length) :
    record optional true (table t) cells =
      if t.attributes ≠ [] ∧ t.aliasName ∈ optional ∧ ∀ cell ∈ cells, cell.isNull = true then
        .value .null
      else .object (t.fields cells) := by
  have hcollapses := @collapses_table optional t
  rw [table] at hcollapses
  rw [table, record, recordFields_table h]
  simp only [Bool.true_and, Bool.and_eq_true, hcollapses, List.all_eq_true, and_assoc]

/-- The record of an object of tables has the record of each table under its alias. -/
theorem recordFields_tables (tables : List Table) (cellsOf : Table → Row)
    (h : ∀ t ∈ tables, (cellsOf t).length = t.attributes.length) :
    recordFields optional (tables.map fun t => (t.aliasName, table t)) (tables.flatMap cellsOf) =
      tables.map fun t => (t.aliasName, record optional true (table t) (cellsOf t)) := by
  induction tables with
  | nil => rfl
  | cons t tables ih =>
    have hlength : (table t).leaves.length = (cellsOf t).length := by
      rw [length_leaves_table, h t (by simp)]
    -- the cells of the first table come first, and the others follow
    rw [List.map_cons, List.flatMap_cons, recordFields, hlength, List.take_left, List.drop_left,
      ih fun t ht => h t (by simp [ht]), List.map_cons]

theorem leaves_tables (tables : List Table) :
    (object (tables.map fun t => (t.aliasName, table t))).leaves =
      tables.flatMap fun t => t.columns.map fun c => ([t.aliasName, c.name], c) := by
  rw [leaves]
  induction tables with
  | nil => rfl
  | cons t tables ih => simp [fieldLeaves, leaves_table, ih]

end Projection

theorem lookup_map_of_nodup {α β : Type} (key : α → String) {f : α → β} {items : List α}
    (hnodup : (items.map key).Nodup) {a : α} (ha : a ∈ items) :
    (items.map fun a => (key a, f a)).lookup (key a) = some (f a) := by
  induction items with
  | nil => cases ha
  | cons first items ih =>
    rw [List.map_cons, List.nodup_cons] at hnodup
    rcases List.mem_cons.1 ha with rfl | ha
    · simp
    · have hne : key a ≠ key first := fun heq => hnodup.1 (heq ▸ List.mem_map_of_mem ha)
      rw [List.map_cons, List.lookup_cons, beq_false_of_ne hne, ih hnodup.2 ha]

namespace Query

variable {q : Query}

theorem effectiveProjection_of_joins (hprojection : q.projection = none) (hjoins : q.joins ≠ []) :
    q.effectiveProjection = .object (q.tables.map fun t => (t.aliasName, .table t)) := by
  simp [effectiveProjection, hprojection, hjoins]

theorem mem_map_aliasName_of_optional {aliasName : String} (h : aliasName ∈ q.optionalAliases) :
    aliasName ∈ q.tables.map (·.aliasName) := by
  rcases Database.mem_optionalFrom h with hmem | ⟨before, j, behind, hjoins, hj⟩
  · cases hmem
  · rw [q.map_aliasName_tables, hjoins, List.map_append, ← List.cons_append]
    rcases hj with ⟨-, rfl⟩ | ⟨-, hmem⟩
    · exact List.mem_append_right _ List.mem_cons_self
    · exact List.mem_append_left _ (by simpa using hmem)

/-- The cells of a joined row are as many as the columns of the tables. -/
theorem length_cellsOf_of_mem_joined {db : Database} {row : JoinedRow}
    (hnodup : (q.tables.map (·.aliasName)).Nodup) (hrow : row ∈ db.joined q) :
    ∀ t ∈ q.tables, (row.cellsOf t).length = t.attributes.length := by
  intro t ht
  rw [JoinedRow.cellsOf]
  cases hcells : row t.aliasName with
  | none => simp
  | some cells => exact db.width t cells (Database.mem_rows_of_mem_joined hnodup hrow ht hcells)

/-- The record of a joined row has the record of each table under its alias. -/
theorem mapRow_joined {db : Database} {row : JoinedRow} (hprojection : q.projection = none)
    (hjoins : q.joins ≠ []) (hnodup : (q.tables.map (·.aliasName)).Nodup)
    (hrow : row ∈ db.joined q) :
    q.mapper.mapRow (row.cells q.tables) = .ok (.object (q.tables.map fun t =>
      (t.aliasName, (Projection.table t).record q.optionalAliases true (row.cellsOf t)))) := by
  have hcells := length_cellsOf_of_mem_joined hnodup hrow
  have hprojection := effectiveProjection_of_joins hprojection hjoins
  have hlength : (row.cells q.tables).length = q.effectiveProjection.leaves.length := by
    rw [hprojection, Projection.leaves_tables, JoinedRow.cells, List.length_flatMap,
      List.length_flatMap]
    congr 1
    refine List.map_congr_left fun t ht => ?_
    rw [hcells t ht, List.length_map, Table.columns, List.length_map]
  rw [mapper, RowMapper.mapRow_ofProjection _ _ _ hlength, hprojection, Projection.record,
    JoinedRow.cells, Projection.recordFields_tables _ _ hcells]
  rfl

/-- The tables that may be left out are exactly those that a join leaves out of some row. In the
records of a query over joined tables that has no projection, a table that was left out is null, and
one that contributed a cell that is not null is the object of its cells. -/
theorem optionalAliases_iff_leftOut {d : Dialect} {t : Table} {steps : List Step}
    (h : (ofTable d t).run steps = .ok q) :
    (∀ (db : Database), ∀ row ∈ db.joined q, ∀ s ∈ q.tables, row s.aliasName = none →
      s.aliasName ∈ q.optionalAliases) ∧
    (∀ aliasName ∈ q.optionalAliases, aliasName ∈ q.tables.map (·.aliasName) ∧
      ∃ (db : Database) (row : JoinedRow), row ∈ db.joined q ∧ row aliasName = none) ∧
    (∀ r : Rendered, q.render = .ok r → q.projection = none → q.joins ≠ [] →
      q.effectiveProjection.leaves =
        q.tables.flatMap (fun s => s.columns.map fun c => ([s.aliasName, c.name], c)) ∧
      ∀ (db : Database), ∀ row ∈ db.joined q, ∃ record,
        r.mapper.mapRow (row.cells q.tables) = .ok record ∧
        ∀ s ∈ q.tables, s.attributes ≠ [] →
          (row s.aliasName = none → record.path? [s.aliasName] = some (.value .null)) ∧
          (∀ cells, row s.aliasName = some cells → (∃ cell ∈ cells, cell.isNull = false) →
            record.path? [s.aliasName] = some (.object (s.fields cells)))) := by
  have hnodup := (invariant_of_run h).1.nodup_aliases
  refine ⟨fun db row hrow s hs hnone => Database.mem_optionalAliases_of_leftOut hrow hs hnone,
    fun aliasName hmem => ⟨mem_map_aliasName_of_optional hmem,
      Database.exists_leftOut hnodup hmem⟩, fun r hr hprojection hjoins => ⟨?_, ?_⟩⟩
  · rw [effectiveProjection_of_joins hprojection hjoins, Projection.leaves_tables]
  intro db row hrow
  have hmapper := (render_eq_ok.1 hr).2.2
  refine ⟨_, by rw [hmapper, mapRow_joined hprojection hjoins hnodup hrow], fun s hs hne => ?_⟩
  have hpath : ∀ fields, (Record.object fields).path? [s.aliasName] =
      fields.lookup s.aliasName := fun fields => by
    cases hlookup : fields.lookup s.aliasName <;> simp [Record.path?, Record.get?, hlookup]
  have hlength := length_cellsOf_of_mem_joined hnodup hrow s hs
  rw [hpath, lookup_map_of_nodup Table.aliasName hnodup hs,
    Projection.record_table hlength]
  constructor
  -- a table that is left out is optional, and has nothing but null
  · intro hnone
    have hoptional := Database.mem_optionalAliases_of_leftOut hrow hs hnone
    have hnull : ∀ cell ∈ row.cellsOf s, cell.isNull = true := by
      intro cell hcell
      rw [JoinedRow.cellsOf, hnone, Option.getD_none] at hcell
      rw [List.eq_of_mem_replicate hcell]
      rfl
    rw [if_pos ⟨hne, hoptional, hnull⟩]
  · intro cells hcells hcell
    have hcellsOf : row.cellsOf s = cells := by rw [JoinedRow.cellsOf, hcells, Option.getD_some]
    obtain ⟨cell, hmem, hnull⟩ := hcell
    rw [hcellsOf, if_neg]
    rintro ⟨-, -, hall⟩
    rw [hall cell hmem] at hnull
    cases hnull

/-- A left join leaves out its table where its condition fails, and the right join behind it may
leave out the first table too, which contributes a cell here. -/
theorem optionalAliases_iff_leftOut_two_joins :
    ∃ (q : Query) (r : Rendered),
      (ofTable .sqlite ⟨"a", .path ["a"], [{ name := "x", type := .number }]⟩).run
        [.join .left ⟨"b", .path ["b"], [{ name := "y", type := .number }]⟩, .joinOn (.pattern []),
          .join .right ⟨"c", .path ["c"], [{ name := "z", type := .number }]⟩,
          .joinOn (.pattern [])] = .ok q ∧
      q.render = .ok r ∧ "b" ∈ q.optionalAliases ∧
      (∃ (db : Database) (row : JoinedRow), row ∈ db.joined q ∧ row "a" = none) ∧
      ∃ row ∈ (Database.unmatched "b" (.integer 7)).joined q, ∃ record,
        r.mapper.mapRow (row.cells q.tables) = .ok record ∧
        record.path? ["b"] = some (.value .null) ∧
        record.path? ["a"] = some (.object [("x", .value (.integer 7))]) := by
  let q : Query :=
    { dialect := .sqlite
      primary := ⟨"a", .path ["a"], [{ name := "x", type := .number }]⟩
      joins := [⟨.left, ⟨"b", .path ["b"], [{ name := "y", type := .number }]⟩,
          some (.literal true)⟩,
        ⟨.right, ⟨"c", .path ["c"], [{ name := "z", type := .number }]⟩, some (.literal true)⟩]
      stage := .joinFiltered }
  let row : JoinedRow := Function.update
    (Function.update (Function.update JoinedRow.empty "a" (some [.integer 7])) "b" none) "c"
    (some [.integer 7])
  have hrow : row ∈ (Database.unmatched "b" (.integer 7)).joined q := List.mem_singleton.2 rfl
  have hrun : (ofTable .sqlite q.primary).run
      [.join .left ⟨"b", .path ["b"], [{ name := "y", type := .number }]⟩, .joinOn (.pattern []),
        .join .right ⟨"c", .path ["c"], [{ name := "z", type := .number }]⟩,
        .joinOn (.pattern [])] = .ok q := rfl
  obtain ⟨hsound, hexact, hrecords⟩ := optionalAliases_iff_leftOut hrun
  obtain ⟨record, hrecord, htables⟩ := (hrecords _ rfl rfl (List.cons_ne_nil _ _)).2 _ row hrow
  exact ⟨q, _, rfl, rfl, hsound _ row hrow _ (.tail _ (.head _)) rfl, (hexact "a" (by decide)).2,
    row, hrow, record, hrecord, (htables _ (.tail _ (.head _)) (List.cons_ne_nil _ _)).1 rfl,
    (htables _ (.head _) (List.cons_ne_nil _ _)).2 [.integer 7] rfl ⟨_, .head _, rfl⟩⟩

end Query

end Discography
