import Discography.Proofs.Query.DefaultProjection
import Mathlib.Data.List.Perm.Subperm

/-!
# Nulls in the rows of queries

A column of a table that is made of a query may be null if the column that it comes from may, or if
an outer join may leave out the table of that column. Such tables are joined in further queries, to
any depth. As long as the tables of the database have no null where none is declared, no row of
these tables has one either, whatever the conditions are and whichever rows a filter, an order and
limits leave.

## Main definitions

* `Stored`: what the tables of the database hold
* `Query.resultRow`: the row that a query returns for a joined row
* `Query.OuterJoined`: an outer join may leave out a table
* `Table.Holds`: the rows of a table, made of queries to any depth
* `Table.ComesFrom`: the column of the database that a column comes from, and the way there

## Main results

* `Query.mem_optionalAliases_iff`: the tables that may be left out are those that are outer joined
* `Query.fits_resultRow`: the rows of a query fit its table
* `Table.Holds.fits`: so do the rows of a table that is made of queries to any depth
* `Table.ComesFrom.type_eq_and_nullable_iff`: types and nulls along the way of a column
* `Table.isNull_eq_false_of_holds`: there is no null where none is declared
-/

namespace Discography

/-! ### Tables that are outer joined -/

namespace Query

variable {q : Query} {aliasName : String}

/-- A left join joins the table of that alias, or a right join comes behind it. -/
def OuterJoined (q : Query) (aliasName : String) : Prop :=
  ∃ before j behind, q.joins = before ++ j :: behind ∧
    (j.kind = .left ∧ aliasName = j.table.aliasName ∨
      j.kind = .right ∧ aliasName ∈ q.primary.aliasName :: before.map (·.table.aliasName))

theorem mem_optionalFrom_of_mem {earlier optional : List String} {joins : List Join}
    (h : aliasName ∈ optional) : aliasName ∈ optionalFrom earlier optional joins := by
  induction joins generalizing earlier optional with
  | nil => exact h
  | cons j joins ih => exact ih (Database.mem_optionalAfter.mpr (.inl h))

theorem mem_optionalFrom_of_outerJoined {earlier optional : List String} {before : List Join}
    {j : Join} {behind : List Join}
    (h : j.kind = .left ∧ aliasName = j.table.aliasName ∨
      j.kind = .right ∧ aliasName ∈ earlier ++ before.map (·.table.aliasName)) :
    aliasName ∈ optionalFrom earlier optional (before ++ j :: behind) := by
  induction before generalizing earlier optional with
  | nil =>
    rw [List.nil_append, Database.optionalFrom_cons]
    refine mem_optionalFrom_of_mem (Database.mem_optionalAfter.mpr ?_)
    rcases h with hleft | ⟨hright, hmem⟩
    · exact .inr (.inl hleft)
    · exact .inr (.inr ⟨hright, by simpa using hmem⟩)
  | cons first before ih =>
    -- the first join is one more table in front of those that follow
    exact ih (by simpa using h)

theorem mem_optionalAliases_iff : aliasName ∈ q.optionalAliases ↔ q.OuterJoined aliasName := by
  constructor
  · intro h
    rcases Database.mem_optionalFrom h with hmem | hjoined
    · cases hmem
    · exact hjoined
  · rintro ⟨before, j, behind, hjoins, hj⟩
    rw [optionalAliases, hjoins]
    exact mem_optionalFrom_of_outerJoined hj

end Query

/-! ### Rows -/

/-- What the tables of the database hold: rows of cells under the names of columns. -/
abbrev Stored := List String → List (String → Cell)

/-- The cell of a row of a table under a name. -/
def Table.cell? (t : Table) (cells : Row) (name : String) : Option Cell :=
  ((t.attributes.map (·.name)).zip cells).lookup name

/-- The cells of a row depend on the names of the columns only, and there is no null where none is
declared. -/
def Table.Fits (t : Table) (row : Row) : Prop :=
  ∃ cellOf : String → Cell, row = t.attributes.map (cellOf ·.name) ∧
    ∀ a ∈ t.attributes, a.nullable = false → (cellOf a.name).isNull = false

theorem lookup_zip_map {names : List String} (f : String → Cell) {name : String}
    (h : name ∈ names) : (names.zip (names.map f)).lookup name = some (f name) := by
  induction names with
  | nil => cases h
  | cons first names ih =>
    rw [List.map_cons, List.zip_cons_cons, List.lookup_cons]
    by_cases hname : name = first
    · simp [hname]
    · rw [beq_false_of_ne hname]
      exact ih ((List.mem_cons.mp h).resolve_left hname)

theorem Table.Fits.exists_cell? {t : Table} {row : Row} (h : t.Fits row) {a : Attribute}
    (ha : a ∈ t.attributes) :
    ∃ cell, t.cell? row a.name = some cell ∧ (a.nullable = false → cell.isNull = false) := by
  obtain ⟨cellOf, rfl, hnull⟩ := h
  refine ⟨cellOf a.name, ?_, hnull a ha⟩
  have hcells : t.attributes.map (cellOf ·.name) = (t.attributes.map (·.name)).map cellOf := by
    rw [List.map_map]
    rfl
  rw [cell?, hcells]
  exact lookup_zip_map cellOf (List.mem_map_of_mem ha)

theorem Table.Fits.forall₂_isNull {t : Table} {row : Row} (h : t.Fits row) :
    List.Forall₂ (fun a cell => a.nullable = false → cell.isNull = false) t.attributes row := by
  obtain ⟨cellOf, rfl, hnull⟩ := h
  rw [List.forall₂_map_right_iff, List.forall₂_same]
  exact hnull

namespace Query

variable {d : Dialect} {q : Query} {t : Table}

/-- The cell of a joined row in a column, null if the table of the column was left out. -/
def cell (q : Query) (row : JoinedRow) (c : Column) : Cell :=
  ((q.table? c.aliasName).bind fun t =>
    (row c.aliasName).bind fun cells => t.cell? cells c.name).getD .null

/-- The row that a query returns for a joined row: its cells in the columns of the projection. -/
def resultRow (q : Query) (row : JoinedRow) : Row :=
  q.effectiveProjection.leaves.map fun leaf => q.cell row leaf.2

/-- The columns of the projection are as the tables in scope define them. -/
def SelectsDefined (q : Query) : Prop :=
  ∀ leaf ∈ q.effectiveProjection.leaves, ∃ t ∈ q.tables, leaf.2 ∈ t.columns

/-- There is no null in a column without nulls of a table that was not outer joined. -/
theorem isNull_cell (hq : q.Invariant) {db : Database} {row : JoinedRow} (hrow : row ∈ db.joined q)
    (ht : t ∈ q.tables) (hfits : ∀ cells ∈ db.rows t, t.Fits cells) {a : Attribute}
    (ha : a ∈ t.attributes) (hnull : a.nullable = false) (houter : ¬ q.OuterJoined t.aliasName) :
    (q.cell row (t.columnOf a)).isNull = false := by
  have hsome : row t.aliasName ≠ none := fun hnone =>
    houter (mem_optionalAliases_iff.mp (Database.mem_optionalAliases_of_leftOut hrow ht hnone))
  obtain ⟨cells, hcells⟩ := Option.ne_none_iff_exists'.mp hsome
  have hmem := Database.mem_rows_of_mem_joined hq.nodup_aliases hrow ht hcells
  obtain ⟨cell, hcell, hcellNull⟩ := (hfits cells hmem).exists_cell? ha
  have hcolumn : q.cell row (t.columnOf a) = cell := by
    simp [Query.cell, Table.columnOf, table?_of_mem hq.nodup_aliases ht, hcells, hcell]
  rw [hcolumn]
  exact hcellNull hnull

/-- Of two columns under one key either is the other, or they have the same name in one table: keys
that were given are distinct, and the others are the names of columns. -/
theorem same_name_of_same_key (hvalid : ∀ p ∈ q.projection, p.Valid q.tables)
    {columns : List (String × Column)} (hflat : q.effectiveProjection.flat? = some columns)
    {key : String} {c c' : Column} (hc : (key, c) ∈ columns) (hc' : (key, c') ∈ columns) :
    c.aliasName = c'.aliasName ∧ c.name = c'.name := by
  cases hprojection : q.projection with
  | some p =>
    have hp : q.effectiveProjection = p := by rw [effectiveProjection, hprojection]
    have hobject := hvalid p hprojection
    rw [← hp, eq_columns_of_flat? hflat, Projection.valid_columns_iff] at hobject
    obtain ⟨-, hnodup, -⟩ := hobject
    have heq := List.inj_on_of_nodup_map hnodup hc hc' rfl
    obtain rfl := (Prod.mk.inj heq).2
    exact ⟨rfl, rfl⟩
  | none =>
    have hleaf : ∀ c, (key, c) ∈ columns → ([key], c) ∈ q.effectiveProjection.leaves := by
      intro c hc
      rw [leaves_of_flat? hflat]
      exact List.mem_map_of_mem hc
    by_cases hjoins : q.joins = []
    · have htable : q.effectiveProjection = .table q.primary := by
        simp [effectiveProjection, hprojection, hjoins]
      have hname : ∀ c, (key, c) ∈ columns → c.aliasName = q.primary.aliasName ∧ c.name = key := by
        intro c hc
        have hmem := hleaf c hc
        rw [htable, Projection.leaves_table] at hmem
        obtain ⟨c, hcolumn, heq⟩ := List.mem_map.mp hmem
        obtain ⟨hkey, rfl⟩ := Prod.mk.inj heq
        obtain ⟨a, -, rfl⟩ := List.mem_map.mp hcolumn
        exact ⟨rfl, List.singleton_inj.mp hkey⟩
      obtain ⟨halias, hkey⟩ := hname c hc
      obtain ⟨halias', hkey'⟩ := hname c' hc'
      exact ⟨halias.trans halias'.symm, hkey.trans hkey'.symm⟩
    -- over joined tables there are two keys above every column
    · have hmem := hleaf c hc
      rw [effectiveProjection_of_joins hprojection hjoins, Projection.leaves_tables] at hmem
      simp at hmem

/-- So the cell under a key is that of any column under the key. -/
theorem exists_cellOf (hvalid : ∀ p ∈ q.projection, p.Valid q.tables)
    {columns : List (String × Column)} (hflat : q.effectiveProjection.flat? = some columns)
    (row : JoinedRow) :
    ∃ cellOf : String → Cell, ∀ key c, (key, c) ∈ columns → cellOf key = q.cell row c := by
  refine ⟨fun key => ((columns.find? (·.1 = key)).map (q.cell row ·.2)).getD .null,
    fun key c hc => ?_⟩
  obtain ⟨⟨key', c'⟩, hfound⟩ : ∃ column, columns.find? (·.1 = key) = some column :=
    Option.isSome_iff_exists.mp (List.find?_isSome.mpr ⟨(key, c), hc, by simp⟩)
  obtain rfl : key' = key := by simpa using List.find?_some hfound
  obtain ⟨halias, hname⟩ :=
    same_name_of_same_key hvalid hflat (List.mem_of_find?_eq_some hfound) hc
  simp [hfound, Query.cell, halias, hname]

/-- The columns of the table of a query are those of its projection, in order. -/
theorem exists_leaf_of_asTable {aliasName : String} (h : q.asTable aliasName = .ok t) {i : Nat}
    {b : Attribute} (hb : t.attributes[i]? = some b) :
    ∃ key c, q.effectiveProjection.leaves[i]? = some ([key], c) ∧
      b = derivedAttribute q.optionalAliases (key, c) := by
  obtain ⟨-, columns, hflat, sql, -, rfl⟩ := asTable_eq_ok.mp h
  rw [List.getElem?_map] at hb
  obtain ⟨⟨key, c⟩, hcolumn, rfl⟩ := Option.map_eq_some_iff.mp hb
  exact ⟨key, c, by rw [leaves_of_flat? hflat, List.getElem?_map, hcolumn]; rfl, rfl⟩

/-- The row that a query returns fits the table of the query. -/
theorem fits_resultRow (hq : q.Invariant) (hvalid : ∀ p ∈ q.projection, p.Valid q.tables)
    (hdefined : q.SelectsDefined) {db : Database}
    (hfits : ∀ t ∈ q.tables, ∀ cells ∈ db.rows t, t.Fits cells) {aliasName : String}
    (h : q.asTable aliasName = .ok t) {row : JoinedRow} (hrow : row ∈ db.joined q) :
    t.Fits (q.resultRow row) := by
  obtain ⟨-, columns, hflat, sql, -, rfl⟩ := asTable_eq_ok.mp h
  have hleaves := leaves_of_flat? hflat
  obtain ⟨cellOf, hcellOf⟩ := exists_cellOf hvalid hflat row
  refine ⟨cellOf, ?_, ?_⟩
  · rw [resultRow, hleaves, List.map_map, List.map_map]
    exact List.map_congr_left fun (key, c) hc => (hcellOf key c hc).symm
  · refine List.forall_mem_map.mpr fun (key, c) hc hnull => ?_
    obtain ⟨hdeclared, hnotOptional⟩ : c.declared.nullable = false ∧
        c.aliasName ∉ q.optionalAliases := by simpa [derivedAttribute] using hnull
    obtain ⟨s, hs, hcolumn⟩ := hdefined ([key], c) (hleaves ▸ List.mem_map_of_mem hc)
    obtain ⟨a, ha, rfl⟩ := List.mem_map.mp hcolumn
    have hcell : cellOf key = q.cell row (s.columnOf a) := hcellOf key _ hc
    exact hcell ▸ isNull_cell hq hrow hs (hfits s hs) ha hdeclared
      (mt mem_optionalAliases_iff.mpr hnotOptional)

end Query

/-! ### Towers of queries -/

/-- The rows of a table over what the tables of the database hold. A table of the database has its
columns there, and those that are declared without nulls have none. A query returns rows of its
joined tables, all of them or some, in any order. -/
inductive Table.Holds (stored : Stored) : Table → List Row → Prop
  | path {segments : List String} {attributes : List Attribute} (aliasName : String)
    (declared : ∀ r ∈ stored segments, ∀ a ∈ attributes, a.nullable = false →
      (r a.name).isNull = false) :
    Holds stored ⟨aliasName, .path segments, attributes⟩
      ((stored segments).map fun r => attributes.map (r ·.name))
  | withAlias {t : Table} {rows : List Row} (aliasName : String) (holds : Holds stored t rows) :
    Holds stored (t.withAlias aliasName) rows
  | asTable {d : Dialect} {first t : Table} {steps : List Query.Step} {q : Query} {db : Database}
    {aliasName : String} {rows : List Row} (built : (Query.ofTable d first).run steps = .ok q)
    (defined : q.SelectsDefined) (tables : ∀ s ∈ q.tables, Holds stored s (db.rows s))
    (derived : q.asTable aliasName = .ok t)
    (returned : rows.Subperm ((db.joined q).map q.resultRow)) : Holds stored t rows

/-- A column of a table comes from a column of the database, through the given tables of the given
queries. -/
inductive Table.ComesFrom : Table → Attribute → Attribute → List (Query × Table) → Prop
  | path {aliasName : String} {segments : List String} {attributes : List Attribute}
    {a : Attribute} (declared : a ∈ attributes) :
    ComesFrom ⟨aliasName, .path segments, attributes⟩ a a []
  | withAlias {t : Table} {a base : Attribute} {trail : List (Query × Table)} (aliasName : String)
    (comes : ComesFrom t a base trail) : ComesFrom (t.withAlias aliasName) a base trail
  | asTable {d : Dialect} {first s t : Table} {steps : List Query.Step} {q : Query}
    {aliasName : String} {i : Nat} {keys : List String} {a b base : Attribute}
    {trail : List (Query × Table)} (built : (Query.ofTable d first).run steps = .ok q)
    (derived : q.asTable aliasName = .ok t) (scope : s ∈ q.tables)
    (selected : q.effectiveProjection.leaves[i]? = some (keys, s.columnOf a))
    (column : t.attributes[i]? = some b) (comes : ComesFrom s a base trail) :
    ComesFrom t b base ((q, s) :: trail)

namespace Table

variable {stored : Stored} {t : Table} {rows : List Row} {a base : Attribute}
  {trail : List (Query × Table)}

/-- The rows of a table fit it. -/
theorem Holds.fits (h : t.Holds stored rows) : ∀ row ∈ rows, t.Fits row := by
  induction h with
  | path aliasName declared => exact List.forall_mem_map.mpr fun r hr => ⟨r, rfl, declared r hr⟩
  | withAlias aliasName _ ih => exact ih
  | @asTable d first t steps q db aliasName rows built defined _ derived returned ih =>
    intro row hrow
    obtain ⟨joinedRow, hjoined, rfl⟩ := List.mem_map.mp (returned.subset hrow)
    exact Query.fits_resultRow ((Query.invariant_ofTable d first).run built)
      (Query.valid_projection_of_run built) defined ih derived hjoined

/-- Every column of a tower of queries comes from a column of the database. -/
theorem Holds.exists_comesFrom (h : t.Holds stored rows) :
    ∀ a ∈ t.attributes, ∃ base trail, t.ComesFrom a base trail := by
  induction h with
  | path aliasName declared => exact fun a ha => ⟨a, [], .path ha⟩
  | withAlias aliasName _ ih =>
    intro a ha
    obtain ⟨base, trail, hcomes⟩ := ih a ha
    exact ⟨base, trail, hcomes.withAlias aliasName⟩
  | @asTable d first t steps q db aliasName rows built defined _ derived returned ih =>
    intro b hb
    obtain ⟨i, hi⟩ := List.mem_iff_getElem?.mp hb
    obtain ⟨key, c, hleaf, -⟩ := Query.exists_leaf_of_asTable derived hi
    obtain ⟨s, hs, hcolumn⟩ := defined _ (List.mem_of_getElem? hleaf)
    obtain ⟨a, ha, rfl⟩ := List.mem_map.mp hcolumn
    obtain ⟨base, trail, hcomes⟩ := ih s hs a ha
    exact ⟨base, _, .asTable built derived hs hleaf hi hcomes⟩

/-- A column has the type of the column that it comes from, and may be null if that one may or if an
outer join was on the way. -/
theorem ComesFrom.type_eq_and_nullable_iff (h : t.ComesFrom a base trail) :
    a ∈ t.attributes ∧ a.type = base.type ∧
      (a.nullable = true ↔
        base.nullable = true ∨ ∃ step ∈ trail, step.1.OuterJoined step.2.aliasName) := by
  induction h with
  | path declared => exact ⟨declared, rfl, by simp⟩
  | withAlias aliasName _ ih => exact ih
  | @asTable d first s t steps q aliasName i keys a b base trail built derived scope selected column
      _ ih =>
    obtain ⟨key, c, hleaf, rfl⟩ := Query.exists_leaf_of_asTable derived column
    obtain ⟨-, rfl⟩ := Prod.mk.inj (Option.some.inj (selected.symm.trans hleaf))
    obtain ⟨-, htype, hnullable⟩ := ih
    refine ⟨List.mem_of_getElem? column, htype, ?_⟩
    have hderived : (Query.derivedAttribute q.optionalAliases (key, s.columnOf a)).nullable = true ↔
        a.nullable = true ∨ q.OuterJoined s.aliasName := by
      rw [← Query.mem_optionalAliases_iff, Query.derivedAttribute, Bool.or_eq_true,
        decide_eq_true_eq]
      rfl
    rw [hderived, hnullable, or_assoc]
    exact or_congr_right (by simp [or_comm])

/-- **Nulls in towers of queries.** A table over the database, made of queries to any depth, has no
null in a column that is not declared to have them. Each of its columns comes from a column of the
database, with the same type, and is declared to have nulls if that one is or if an outer join on
the way may leave out the table that it is taken from. -/
theorem isNull_eq_false_of_holds (h : t.Holds stored rows) :
    (∀ row ∈ rows, List.Forall₂ (fun a cell => a.nullable = false → cell.isNull = false)
      t.attributes row) ∧
    (∀ a ∈ t.attributes, ∃ base trail, t.ComesFrom a base trail) ∧
    ∀ a base trail, t.ComesFrom a base trail → a ∈ t.attributes ∧ a.type = base.type ∧
      (a.nullable = true ↔
        base.nullable = true ∨ ∃ step ∈ trail, step.1.OuterJoined step.2.aliasName) :=
  ⟨fun row hrow => (h.fits row hrow).forall₂_isNull, h.exists_comesFrom,
    fun _ _ _ hcomes => hcomes.type_eq_and_nullable_iff⟩

/-- A left join leaves out the second of three tables, and a right join those two. -/
theorem isNull_eq_false_of_holds_two_joins :
    ∃ (stored : Stored) (t : Table) (rows : List Row), t.Holds stored rows ∧
      rows = [[.null, .integer 7]] ∧ t.attributes.map (·.nullable) = [true, false] ∧
      (∀ row ∈ rows, List.Forall₂ (fun a cell => a.nullable = false → cell.isNull = false)
        t.attributes row) ∧
      ∀ a ∈ t.attributes, ∃ base trail, t.ComesFrom a base trail := by
  let x : Attribute := { name := "x", type := .number }
  let y : Attribute := { name := "y", type := .number }
  let z : Attribute := { name := "z", type := .number }
  let a : Table := ⟨"a", .path ["a"], [x]⟩
  let b : Table := ⟨"b", .path ["b"], [y]⟩
  let c : Table := ⟨"c", .path ["c"], [z]⟩
  let stored : Stored := fun _ => [fun _ => .integer 7]
  -- every table has one row, and no two rows match
  let db : Database :=
    { rows := fun t => [t.attributes.map fun a => if a.nullable then .null else .integer 7]
      on := fun _ _ _ => .fails
      width := by simp }
  have hbase : ∀ t ∈ [a, b, c], t.Holds stored (db.rows t) := by
    have hnull : ∀ attributes : List Attribute, ∀ r ∈ stored [], ∀ a ∈ attributes,
      a.nullable = false → (r a.name).isNull = false := by simp [stored, Cell.isNull]
    simp only [List.forall_mem_cons]
    exact ⟨.path "a" (hnull _), .path "b" (hnull _), .path "c" (hnull _), nofun⟩
  -- the second table is left out of the first query
  let xy : Projection := .object [("x", .column (a.columnOf x)), ("y", .column (b.columnOf y))]
  let ab : Query :=
    { dialect := .sqlite, primary := a, joins := [⟨.left, b, some (.literal true)⟩]
      projection := some xy, stage := .shaping }
  have hab : (Query.ofTable .sqlite a).run
      [.join .left b, .joinOn (.pattern []), .select xy] = .ok ab := rfl
  obtain ⟨sql, habTable⟩ : ∃ sql, ab.asTable "ab" = .ok ⟨"ab", .subquery sql, [x, y.orNull]⟩ :=
    ⟨_, rfl⟩
  have habHolds : Holds stored ⟨"ab", .subquery sql, [x, y.orNull]⟩ [[.integer 7, .null]] := by
    have hrows : List.Subperm [[.integer 7, .null]] ((db.joined ab).map ab.resultRow) :=
      List.Subperm.refl _
    refine .asTable hab ?_ (fun t ht => hbase t ?_) habTable hrows
    · simp [Query.SelectsDefined, ab, xy, Query.effectiveProjection, Projection.leaves,
        Projection.fieldLeaves, Query.tables, Table.columns, a, b]
    · exact List.mem_of_mem_take (i := 2) ht
  -- the table of that query is left out of the second one
  let top : Table := ⟨"ab", .subquery sql, [x, y.orNull]⟩
  let xz : Projection := .object [("x", .column (top.columnOf x)), ("z", .column (c.columnOf z))]
  let abc : Query :=
    { dialect := .sqlite, primary := top, joins := [⟨.right, c, some (.literal true)⟩]
      projection := some xz, stage := .shaping }
  have habc : (Query.ofTable .sqlite top).run
      [.join .right c, .joinOn (.pattern []), .select xz] = .ok abc := rfl
  obtain ⟨sql', habcTable⟩ : ∃ sql', abc.asTable "abc" =
      .ok ⟨"abc", .subquery sql', [x.orNull, z]⟩ := ⟨_, rfl⟩
  have habcHolds : Holds stored ⟨"abc", .subquery sql', [x.orNull, z]⟩ [[.null, .integer 7]] := by
    have hrows : List.Subperm [[.null, .integer 7]] ((db.joined abc).map abc.resultRow) :=
      List.Subperm.refl _
    refine .asTable habc ?_ ?_ habcTable hrows
    · simp [Query.SelectsDefined, abc, xz, Query.effectiveProjection, Projection.leaves,
        Projection.fieldLeaves, Query.tables, Table.columns, top, c]
    · exact List.forall_mem_cons.mpr ⟨habHolds, List.forall_mem_singleton.mpr (hbase c (by simp))⟩
  obtain ⟨hnull, hcomes, -⟩ := isNull_eq_false_of_holds habcHolds
  exact ⟨stored, _, _, habcHolds, rfl, rfl, hnull, hcomes⟩

end Table

end Discography
