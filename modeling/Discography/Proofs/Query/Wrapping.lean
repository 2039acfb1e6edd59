import Discography.Proofs.Query.CountedSource
import Discography.Proofs.Query.Rows
import Discography.Quotation

/-!
# Queries over the rows of a query

A query that returns an object of columns can be used as a table, and the query for all rows of this
table returns what the query itself returns: the columns of the table have the keys of the object as
their names and the types of its columns, so every row becomes the same record, however often this
is repeated. The table holds the statement that the query has at that moment.

## Main definitions

* `Projection.ofColumns`: an object of columns
* `Query.wrapped`: the query for the rows of the rows, with an alias for each time

## Main results

* `Query.exists_asTable_iff`: which queries can be used as tables
* `Query.mapRow_of_columns`: the record of a row, for an object of columns
* `Query.asTable_preserves_rows`: what is kept, however often
-/

namespace Discography

/-! ### Objects of columns -/

namespace Projection

/-- An object whose fields are columns. -/
def ofColumns (columns : List (String × Column)) : Projection :=
  .object (columns.map fun (key, c) => (key, .column c))

theorem flat?_eq_some_iff {p : Projection} {columns : List (String × Column)} :
    p.flat? = some columns ↔ p = ofColumns columns := by
  constructor
  · exact Query.eq_columns_of_flat?
  · rintro rfl
    rw [ofColumns, flat?]
    induction columns with
    | nil => rfl
    | cons column columns ih =>
      rw [List.map_cons, List.mapM_cons, ih]
      rfl

theorem leaves_ofColumns (columns : List (String × Column)) :
    (ofColumns columns).leaves = columns.map fun (key, c) => ([key], c) :=
  Query.leaves_of_flat? (flat?_eq_some_iff.mpr rfl)

/-- The columns of a table are an object of columns. -/
theorem table_eq_ofColumns (t : Table) :
    table t = ofColumns (t.attributes.map fun a => (a.name, t.columnOf a)) := by
  rw [table, ofColumns, Table.columns, List.map_map, List.map_map]
  rfl

/-- The keys of an object of columns, with the types of the columns. -/
def fieldTypes (columns : List (String × Column)) : List (String × ColumnType) :=
  columns.map fun (key, c) => (key, c.declared.type)

theorem map_fst_fieldTypes (columns : List (String × Column)) :
    (fieldTypes columns).map (·.1) = columns.map (·.1) := by
  rw [fieldTypes, List.map_map]
  rfl

/-- The fields of the record of a row: each cell under its key, as a value of its type. -/
def cellFields (fields : List (String × ColumnType)) (row : Row) : List (String × Record) :=
  List.zipWith (fun (key, type) cell => (key, .value (cell.toValue type))) fields row

theorem recordFields_ofColumns (optional : List String) {columns : List (String × Column)}
    {row : Row} (h : row.length = columns.length) :
    recordFields optional (columns.map fun (key, c) => (key, .column c)) row =
      cellFields (fieldTypes columns) row := by
  rw [recordFields_columns optional columns h, cellFields, fieldTypes, List.zipWith_map_left]

end Projection

namespace Query

variable {q : Query} {columns : List (String × Column)} {rendered : Rendered}

/-- The queries that can be used as tables: those that return an object of columns and can be
written. -/
theorem exists_asTable_iff (q : Query) (aliasName : String) :
    (∃ t, q.asTable aliasName = .ok t) ↔ q.stage ≠ .joining ∧
      (∃ columns, q.effectiveProjection = .ofColumns columns) ∧ ∃ r, q.render = .ok r := by
  simp only [asTable_eq_ok, Projection.flat?_eq_some_iff, render_eq_ok]
  constructor
  · rintro ⟨t, hstage, columns, hcolumns, sql, hsql, -⟩
    exact ⟨hstage, ⟨columns, hcolumns⟩, ⟨sql, q.mapper⟩, hstage, hsql, rfl⟩
  · rintro ⟨hstage, ⟨columns, hcolumns⟩, r, -, hsql, -⟩
    exact ⟨_, hstage, columns, hcolumns, _, hsql, rfl⟩

/-- What a row becomes, for an object of columns. -/
theorem mapRow_of_columns (hq : q.effectiveProjection = .ofColumns columns) (row : Row) :
    q.mapper.mapRow row =
      if row.length = columns.length then
        .ok (.object (Projection.cellFields (Projection.fieldTypes columns) row))
      else .error (.decode (.rowWidth row.length columns.length)) := by
  have hlength : q.effectiveProjection.leaves.length = columns.length := by
    rw [hq, Projection.leaves_ofColumns, List.length_map]
  split
  · rename_i hrow
    have hfields := Projection.recordFields_ofColumns q.optionalAliases hrow
    rw [mapper, RowMapper.mapRow_ofProjection _ _ _ (hrow.trans hlength.symm), hq,
      Projection.ofColumns, Projection.record, hfields]
    rfl
  · rename_i hrow
    have hwidth : q.mapper.width = columns.length := hlength
    rw [RowMapper.mapRow, dif_neg (by rwa [hwidth]), hwidth]

/-! ### The rows of a query as a table -/

/-- A column of the `SELECT` list under its own name. -/
def columnText (aliasName key : String) : String :=
  Name.quote aliasName ++ "." ++ Name.quote key ++ " AS " ++ Name.quote key

/-- The statement for all rows of a statement under an alias. -/
def wrappedText (aliasName : String) (keys : List String) (inner : String) : String :=
  "SELECT " ++ ", ".intercalate (keys.map (columnText aliasName)) ++
    " FROM (" ++ inner ++ ") AS " ++ Name.quote aliasName

theorem text_leafSql (t : Table) (a : Attribute) :
    (leafSql ([a.name], t.columnOf a)).text = columnText t.aliasName a.name := by
  rw [← String.toList_inj, Sql.toList_text]
  simp [leafSql, Column.sql, Sql.path, Table.columnOf, columnText, Name.quote, Lexeme.chars]

theorem columnsText_ofTable (d : Dialect) (t : Table) :
    (ofTable d t).columnsText =
      ", ".intercalate ((t.attributes.map (·.name)).map (columnText t.aliasName)) := by
  have hleaves : (ofTable d t).effectiveProjection.leaves =
      t.attributes.map fun a => ([a.name], t.columnOf a) := by
    have htable := Projection.leaves_table t
    rwa [Table.columns, List.map_map] at htable
  rw [columnsText, Sql.text_commas, hleaves, List.map_map, List.map_map, List.map_map]
  exact congrArg _ (List.map_congr_left fun a _ => text_leafSql t a)

/-- The query for all rows of a statement. -/
theorem exists_render_ofTable (d : Dialect) {t : Table} {inner : Sql}
    (ht : t.origin = .subquery inner) :
    ∃ outer, (ofTable d t).render = .ok outer ∧
      outer.sql.text = wrappedText t.aliasName (t.attributes.map (·.name)) inner.text := by
  have hsource : (ofTable d t).sourceSql = .ok (Sql.clause ["FROM"] t.sourceSql ++ [] ++ []) := rfl
  obtain ⟨outer, houter, htext⟩ := (hasSource_of_sourceSql (by simp [ofTable]) hsource).rendered
  have hshape : (ofTable d t).shapeText = "" := rfl
  have hfrom : (Sql.clause ["FROM"] t.sourceSql ++ [] ++ []).text =
      " FROM (" ++ inner.text ++ ") AS " ++ Name.quote t.aliasName := by
    rw [← String.toList_inj, Sql.toList_text]
    simp [Sql.clause, Sql.words, Table.sourceSql, Origin.sql, ht, Sql.parens, Name.quote,
      Sql.toList_text, Lexeme.chars]
  refine ⟨outer, houter, ?_⟩
  rw [htext, hshape, hfrom, columnsText_ofTable, wrappedText]
  simp [String.append_assoc]

/-- A query that returns an object of columns and can be written can be used as a table, and the
query for all rows of the table returns an object of columns with the same keys and types. -/
theorem exists_wrap (hq : q.effectiveProjection = .ofColumns columns)
    (hrendered : q.render = .ok rendered) (aliasName : String) :
    ∃ t outer derived, q.asTable aliasName = .ok t ∧ t.origin = .subquery rendered.sql ∧
      (ofTable q.dialect t).render = .ok outer ∧
      outer.sql.text = wrappedText aliasName (columns.map (·.1)) rendered.sql.text ∧
      (ofTable q.dialect t).effectiveProjection = .ofColumns derived ∧
      Projection.fieldTypes derived = Projection.fieldTypes columns := by
  obtain ⟨hstage, hsql, -⟩ := render_eq_ok.mp hrendered
  let t : Table :=
    { aliasName, origin := .subquery rendered.sql,
      attributes := columns.map (derivedAttribute q.optionalAliases) }
  have ht : q.asTable aliasName = .ok t :=
    asTable_eq_ok.mpr ⟨hstage, columns, Projection.flat?_eq_some_iff.mpr hq, _, hsql, rfl⟩
  obtain ⟨outer, houter, htext⟩ := exists_render_ofTable q.dialect (t := t) rfl
  -- the attributes have the names of the fields, in their order
  have hnames : t.attributes.map (·.name) = columns.map (·.1) := by
    rw [List.map_map]
    exact List.map_congr_left fun _ _ => rfl
  rw [hnames] at htext
  refine ⟨t, outer, _, ht, rfl, houter, htext, Projection.table_eq_ofColumns t, ?_⟩
  rw [Projection.fieldTypes, List.map_map, List.map_map]
  exact List.map_congr_left fun _ _ => rfl

/-- The query for all rows of the table that a query is, and so on, with an alias for each time. -/
def wrapped (q : Query) : List String → Result Query
  | [] => .ok q
  | aliasName :: rest => do (ofTable q.dialect (← q.asTable aliasName)).wrapped rest

/-- However often a query is used as a table, keys and types stay the same. The induction is on the
aliases, and the query is another one each time. -/
theorem exists_wrapped (hq : q.effectiveProjection = .ofColumns columns)
    (hrendered : q.render = .ok rendered) (aliases : List String) :
    ∃ inner captured derived, q.wrapped aliases = .ok inner ∧ inner.dialect = q.dialect ∧
      inner.render = .ok captured ∧ inner.effectiveProjection = .ofColumns derived ∧
      Projection.fieldTypes derived = Projection.fieldTypes columns := by
  induction aliases generalizing q columns rendered with
  | nil => exact ⟨q, rendered, columns, rfl, rfl, hrendered, hq, rfl⟩
  | cons aliasName rest ih =>
    obtain ⟨t, outer, derived, ht, -, houter, -, hderived, htypes⟩ :=
      exists_wrap hq hrendered aliasName
    obtain ⟨inner, captured, last, hinner, hdialect, hcaptured, hlast, hsame⟩ := ih hderived houter
    refine ⟨inner, captured, last, ?_, hdialect, hcaptured, hlast, hsame.trans htypes⟩
    rw [wrapped, ht]
    exact hinner

/-- Objects with the same keys and types make the same records of rows. -/
theorem mapRow_eq_of_fieldTypes_eq {r : Query} {derived : List (String × Column)}
    (hq : q.effectiveProjection = .ofColumns columns)
    (hr : r.effectiveProjection = .ofColumns derived)
    (htypes : Projection.fieldTypes derived = Projection.fieldTypes columns) (row : Row) :
    r.mapper.mapRow row = q.mapper.mapRow row := by
  have hlength : derived.length = columns.length := by
    simpa [Projection.fieldTypes] using congrArg List.length htypes
  rw [mapRow_of_columns hq, mapRow_of_columns hr, htypes, hlength]

/-- **Using a query as a table keeps its rows.** This can be done with the queries that wait for no
condition, return an object of columns and can be written. However often it is done, and under
whatever aliases, the query for all rows of the table selects the keys of the object in their order
from the statement that was there when the table was made, and it makes the same record of every
row, or refuses it for the same number of cells. The table is a value that holds this statement, so
it stays the same when steps follow on the query. -/
theorem asTable_preserves_rows (q : Query) (aliasName : String) :
    ((∃ t, q.asTable aliasName = .ok t) ↔ q.stage ≠ .joining ∧
      (∃ columns, q.effectiveProjection = .ofColumns columns) ∧ ∃ r, q.render = .ok r) ∧
    ∀ columns rendered, q.effectiveProjection = .ofColumns columns → q.render = .ok rendered →
      ∀ aliases, ∃ inner captured t outer, q.wrapped aliases = .ok inner ∧
        inner.render = .ok captured ∧ inner.asTable aliasName = .ok t ∧
        (ofTable q.dialect t).render = .ok outer ∧
        outer.sql.text = wrappedText aliasName (columns.map (·.1)) captured.sql.text ∧
        ∀ row, outer.mapper.mapRow row = rendered.mapper.mapRow row := by
  refine ⟨exists_asTable_iff q aliasName, fun columns rendered hq hrendered aliases => ?_⟩
  -- once more for the last alias, whose table is the one that is looked at
  obtain ⟨inner, captured, derived, hinner, hdialect, hcaptured, hderived, htypes⟩ :=
    exists_wrapped hq hrendered aliases
  obtain ⟨t, outer, last, ht, -, houter, htext, hlast, hsame⟩ :=
    exists_wrap hderived hcaptured aliasName
  have hkeys : derived.map (·.1) = columns.map (·.1) := by
    rw [← Projection.map_fst_fieldTypes, htypes, Projection.map_fst_fieldTypes]
  rw [hdialect] at houter hlast
  rw [hkeys] at htext
  refine ⟨inner, captured, t, outer, hinner, hcaptured, ht, houter, htext, fun row => ?_⟩
  rw [(render_eq_ok.mp houter).2.2, (render_eq_ok.mp hrendered).2.2]
  exact mapRow_eq_of_fieldTypes_eq hq hlast (hsame.trans htypes) row

/-- A join whose columns are selected under other keys and in another order, as a table of a query
that is a table again. The query gets a limit later on, which is in its own statement only. -/
theorem asTable_preserves_rows_joined :
    let a : Table := ⟨"a", .path ["a"], [{ name := "x", type := .boolean }]⟩
    let b : Table := ⟨"b", .path ["b"], [{ name := "y", type := .string }]⟩
    let x : Column := a.columnOf { name := "x", type := .boolean }
    let y : Column := b.columnOf { name := "y", type := .string }
    let steps : List Step := [.join .left b, .joinOn (.comparison (.column x) "=" (.column y)),
      .select (.object [("right", .column y), ("left", .column x)])]
    ∃ q rendered later limited inner t outer, (ofTable .sqlite a).run steps = .ok q ∧
      q.render = .ok rendered ∧ q.run [.take 1] = .ok later ∧ later.render = .ok limited ∧
      limited.sql.text = rendered.sql.text ++ " LIMIT 1" ∧
      q.wrapped ["w"] = .ok inner ∧ inner.asTable "v" = .ok t ∧
      (ofTable .sqlite t).render = .ok outer ∧
      outer.sql.text = "SELECT `v`.`right` AS `right`, `v`.`left` AS `left` FROM (" ++
        "SELECT `w`.`right` AS `right`, `w`.`left` AS `left` FROM (" ++
        "SELECT `b`.`y` AS `right`, `a`.`x` AS `left` FROM `a` AS `a` " ++
        "LEFT JOIN `b` AS `b` ON (`a`.`x` = `b`.`y`)) AS `w`) AS `v`" ∧
      ∀ row, outer.mapper.mapRow row = rendered.mapper.mapRow row := by
  intro a b x y steps
  let q : Query :=
    { ofTable .sqlite a with
      joins := [⟨.left, b, some (.compare (.column x) .eq (.column y))⟩]
      projection := some (.ofColumns [("right", y), ("left", x)])
      stage := .shaping }
  obtain ⟨inner, captured, t, outer, hinner, hcaptured, ht, houter, htext, hrows⟩ :=
    (asTable_preserves_rows q "v").2 _ _ rfl rfl ["w"]
  refine ⟨q, _, _, _, inner, t, outer, rfl, rfl, rfl, rfl, by decide +kernel, hinner, ht, houter,
    ?_, hrows⟩
  obtain rfl := Except.ok.inj hinner
  obtain rfl := Except.ok.inj hcaptured
  rw [htext]
  decide +kernel

end Query

end Discography
