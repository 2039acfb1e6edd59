import Discography.Proofs.Filter.Outline
import Discography.Proofs.Query.Reachable

/-!
# Outlines of queries

The outline of a query under a renaming has renamed tables, columns and keys, and one literal of
each kind. What is written for the outline of a query or of a change of a table is the outline of
what is written for the query or the change.

## Main definitions

* `Projection.outline`, `Query.outline`, `Command.outline`: outlines

## Main results

* `Query.selectSql_outline`, `Query.countSql_outline`: the SQL of the outline of a query
* `Query.asTable_outline`: the outline of a query that is used as a table
* `Command.sql_outline`: the SQL of the outline of a change
-/

namespace Discography

open Token

variable {g : String → String} {d : Dialect}

/-! ### Projections -/

namespace Projection

mutual

/-- The projection with renamed keys and columns. -/
def outline (g : String → String) : Projection → Projection
  | column c => column (c.outline g)
  | object fields => object (outlineFields g fields)

/-- The fields of an object with renamed keys and columns. -/
def outlineFields (g : String → String) : List (String × Projection) → List (String × Projection)
  | [] => []
  | (key, p) :: rest => (g key, p.outline g) :: outlineFields g rest

end

theorem outlineFields_eq_map (g : String → String) (fields : List (String × Projection)) :
    outlineFields g fields = fields.map fun field => (g field.1, field.2.outline g) := by
  induction fields with
  | nil => rfl
  | cons field fields ih => simp [outlineFields, ih]

/-- A column of the `SELECT` list with renamed keys and names. -/
def outlineLeaf (g : String → String) (leaf : List String × Column) : List String × Column :=
  (leaf.1.map g, leaf.2.outline g)

mutual

theorem leaves_outline (g : String → String) : ∀ p : Projection,
    (p.outline g).leaves = p.leaves.map (outlineLeaf g)
  | column _ => rfl
  | object fields => fieldLeaves_outline g fields

theorem fieldLeaves_outline (g : String → String) : ∀ fields : List (String × Projection),
    fieldLeaves (outlineFields g fields) = (fieldLeaves fields).map (outlineLeaf g)
  | [] => rfl
  | (key, p) :: rest => by
    rw [outlineFields, fieldLeaves, fieldLeaves, leaves_outline g p, fieldLeaves_outline g rest]
    simp [outlineLeaf, Function.comp_def]

end

theorem table_outline (g : String → String) (t : Table) :
    table (t.outline g) = (table t).outline g := by
  simp only [table, outline, outlineFields_eq_map, Table.columns, List.map_map]
  congr 1
  simp only [Table.outline, List.map_map]
  exact List.map_congr_left fun a _ => rfl

/-- The keys of an object without objects inside are renamed. -/
theorem flat?_outline (g : String → String) (p : Projection) :
    (p.outline g).flat? = p.flat?.map (List.map fun leaf => (g leaf.1, leaf.2.outline g)) := by
  cases p with
  | column c => rfl
  | object fields =>
    rw [outline, flat?, flat?, outlineFields_eq_map]
    -- the renaming makes no object of a column, so it is flat as before
    refine Outcome.mapM_map ?_ fields
    rintro ⟨key, _ | _⟩ <;> rfl

end Projection

/-! ### Queries -/

/-- The term of an order with renamed columns and keys. -/
def OrderTerm.outline (g : String → String) (t : OrderTerm) : OrderTerm where
  key := match t.key with
    | .column c => .column (c.outline g)
    | .key n => .key (g n)
  direction := t.direction

theorem OrderTerm.sql_outline (g : String → String) (t : OrderTerm) :
    (t.outline g).sql = Sql.outline g t.sql := by
  obtain ⟨key, direction⟩ := t
  have hasc := Sql.outline_word (g := g) (w := "ASC") (by decide)
  have hdesc := Sql.outline_word (g := g) (w := "DESC") (by decide)
  rcases direction with _ | _ | _ <;> cases key <;>
    simp [outline, sql, Column.sql_outline, hasc, hdesc]

/-- The join with renamed tables and with one literal of each kind. -/
def Join.outline (g : String → String) (j : Join) : Join :=
  ⟨j.kind, j.table.outline g, j.condition.map (Predicate.outline g)⟩

namespace Query

/-- The query with renamed tables, columns and keys, and with one literal of each kind. -/
def outline (g : String → String) (q : Query) : Query where
  dialect := q.dialect
  primary := q.primary.outline g
  joins := q.joins.map (Join.outline g)
  filter := q.filter.map (Predicate.outline g)
  projection := q.projection.map (Projection.outline g)
  order := q.order.map (OrderTerm.outline g)
  limit := q.limit.map fun _ => 0
  offset := q.offset.map fun _ => 0
  stage := q.stage

variable {q : Query}

@[simp] theorem dialect_outline : (q.outline g).dialect = q.dialect := rfl

@[simp] theorem primary_outline : (q.outline g).primary = q.primary.outline g := rfl

@[simp] theorem joins_outline : (q.outline g).joins = q.joins.map (Join.outline g) := rfl

@[simp] theorem filter_outline : (q.outline g).filter = q.filter.map (Predicate.outline g) := rfl

@[simp] theorem order_outline : (q.outline g).order = q.order.map (OrderTerm.outline g) := rfl

@[simp] theorem stage_outline : (q.outline g).stage = q.stage := rfl

theorem joinSql_outline (g : String → String) (hd : d.Lexical) (j : Join) :
    joinSql d (j.outline g) = Sql.outline g <$> joinSql d j := by
  have hcondition : (j.outline g).condition.getD (.literal true) =
      (j.condition.getD (.literal true)).outline g := by
    cases h : j.condition <;> simp [Join.outline, h, Predicate.outline]
  have hkind : ∀ w ∈ j.kind.keywords, IsKeyword w := by cases j.kind <;> decide
  have hclause := fun sql : Sql => Sql.outline_clause (g := g) _ hkind sql
  have hon := fun sql : Sql => Sql.outline_clause (g := g) ["ON"] (by decide) sql
  rw [joinSql, joinSql, hcondition, Predicate.sql_outline g hd]
  simp [hclause, hon, Join.outline, Table.sourceSql_outline]

theorem joinsSql_outline (g : String → String) (hd : d.Lexical) (joins : List Join) :
    joinsSql d (joins.map (Join.outline g)) = Sql.outline g <$> joinsSql d joins := by
  induction joins with
  | nil => rfl
  | cons j joins ih =>
    simp only [List.map_cons, joinsSql, joinSql_outline g hd, ih, bind_pure_comp, bind_map_left,
      map_bind, Functor.map_map, Sql.outline_append]

theorem filterSql_outline (g : String → String) (hd : d.Lexical) (filter : Option Predicate) :
    filterSql d (filter.map (Predicate.outline g)) = Sql.outline g <$> filterSql d filter := by
  have hwhere := fun sql : Sql => Sql.outline_clause (g := g) ["WHERE"] (by decide) sql
  cases filter with
  | none => rfl
  | some p => simp [filterSql, Predicate.sql_outline g hd, hwhere]

theorem sourceSql_outline (g : String → String) (hd : q.dialect.Lexical) :
    (q.outline g).sourceSql = Sql.outline g <$> q.sourceSql := by
  have hfrom := fun sql : Sql => Sql.outline_clause (g := g) ["FROM"] (by decide) sql
  simp only [sourceSql, outline, joinsSql_outline g hd, filterSql_outline g hd, bind_pure_comp,
    bind_map_left, map_bind, Functor.map_map, Sql.outline_append, hfrom, Table.sourceSql_outline]

theorem tables_outline (g : String → String) (q : Query) :
    (q.outline g).tables = q.tables.map (Table.outline g) := by
  simp [tables, outline, Function.comp_def, Join.outline]

theorem effectiveProjection_outline (g : String → String) (q : Query) :
    (q.outline g).effectiveProjection = q.effectiveProjection.outline g := by
  have hprojection : (q.outline g).projection = q.projection.map (Projection.outline g) := rfl
  have hjoins : (q.outline g).joins.isEmpty = q.joins.isEmpty := List.isEmpty_map
  have htable : ∀ t : Table, (fun t : Table => (t.aliasName, Projection.table t)) (t.outline g) =
      (g t.aliasName, (Projection.table t).outline g) :=
    fun t => Prod.ext rfl (Projection.table_outline g t)
  rw [effectiveProjection, effectiveProjection, tables_outline, hprojection, hjoins]
  cases q.projection with
  | some p => rfl
  | none =>
    simp only [Option.map_none]
    -- without a projection, one table gives its columns, and several give an object each
    split
    · exact Projection.table_outline g q.primary
    · simp only [Projection.outline, Projection.outlineFields_eq_map, List.map_map]
      congr 1
      exact List.map_congr_left fun t _ => htable t

theorem leafSql_outline (g : String → String) (leaf : List String × Column) :
    leafSql (Projection.outlineLeaf g leaf) = Sql.outline g (leafSql leaf) := by
  obtain ⟨path, c⟩ := leaf
  have has := Sql.outline_word (g := g) (w := "AS") (by decide)
  simp only [Projection.outlineLeaf, leafSql, List.getLast?_map]
  cases path.getLast? with
  | none => exact c.sql_outline g
  | some key => simp [Column.sql_outline, has]

theorem orderSql_outline (g : String → String) (q : Query) :
    (q.outline g).orderSql = Sql.outline g q.orderSql := by
  simp only [orderSql, outline, List.isEmpty_map]
  split
  · rfl
  · rw [Sql.outline_clause _ (by decide), Sql.outline_commas]
    simp [Function.comp_def, OrderTerm.sql_outline]

/-- A limit that only the dialect asks for has no number of the caller, so the outline keeps it. -/
theorem limitSql_outline (g : String → String) (q : Query) :
    Sql.outline id (q.outline g).limitSql = Sql.outline g q.limitSql := by
  have hlimit := fun sql : Sql => Sql.outline_clause (g := g) ["LIMIT"] (by decide) sql
  have hlimit' := fun sql : Sql => Sql.outline_clause (g := id) ["LIMIT"] (by decide) sql
  have hoffset := fun sql : Sql => Sql.outline_clause (g := g) ["OFFSET"] (by decide) sql
  have hoffset' := fun sql : Sql => Sql.outline_clause (g := id) ["OFFSET"] (by decide) sql
  rw [limitSql, limitSql]
  cases hl : q.limit <;> cases ho : q.offset <;> cases hu : q.dialect.unbounded <;>
    simp [outline, hl, ho, hu, hlimit, hlimit', hoffset, hoffset', Lexeme.outline]

theorem selectSql_outline (g : String → String) (hd : q.dialect.Lexical) :
    Sql.outline id <$> (q.outline g).selectSql = Sql.outline g <$> q.selectSql := by
  have hselect := Sql.outline_word (g := g) (w := "SELECT") (by decide)
  have hselect' := Sql.outline_word (g := id) (w := "SELECT") (by decide)
  -- an outline with one more outline is itself; only the limits need the second one
  have hagain : ∀ sql : Sql, Sql.outline id (Sql.outline g sql) = Sql.outline g sql :=
    Sql.outline_outline id g
  have hleaves : (q.outline g).effectiveProjection.leaves.map leafSql =
      (q.effectiveProjection.leaves.map leafSql).map (Sql.outline g) := by
    rw [effectiveProjection_outline, Projection.leaves_outline, List.map_map, List.map_map]
    exact List.map_congr_left fun leaf _ => leafSql_outline g leaf
  have hcommas : Sql.outline id (Sql.commas ((q.effectiveProjection.leaves.map leafSql).map
      (Sql.outline g))) =
      Sql.outline g (Sql.commas (q.effectiveProjection.leaves.map leafSql)) := by
    rw [← Sql.outline_commas, hagain]
  simp only [selectSql, hleaves, sourceSql_outline g hd, bind_pure_comp, Functor.map_map,
    Sql.outline_append, Sql.outline_cons, Sql.outline_space, hselect, hselect', hcommas, hagain,
    orderSql_outline, limitSql_outline]

theorem countSql_outline (g : String → String) (hd : q.dialect.Lexical) :
    (q.outline g).countSql = Sql.outline g <$> q.countSql := by
  have hselect := Sql.outline_word (g := g) (w := "SELECT") (by decide)
  have hcount := Sql.outline_word (g := g) (w := "COUNT") (by decide)
  simp [countSql, sourceSql_outline g hd, hselect, hcount]

theorem optionalFrom_outline (g : String → String) (earlier optional : List String)
    (joins : List Join) :
    optionalFrom (earlier.map g) (optional.map g) (joins.map (Join.outline g)) =
      (optionalFrom earlier optional joins).map g := by
  induction joins generalizing earlier optional with
  | nil => rfl
  | cons j joins ih =>
    have hearlier : earlier.map g ++ [(j.outline g).table.aliasName] =
        (earlier ++ [j.table.aliasName]).map g := by
      simp [Join.outline, Table.outline]
    rw [List.map_cons, optionalFrom, optionalFrom, hearlier, ← ih]
    -- which aliases become optional depends on the kind of the join, which stays
    congr 1
    obtain ⟨kind, t, condition⟩ := j
    cases kind <;> simp [Join.outline, Table.outline]

theorem optionalAliases_outline (g : String → String) (q : Query) :
    (q.outline g).optionalAliases = q.optionalAliases.map g :=
  optionalFrom_outline g [q.primary.aliasName] [] q.joins

/-- A column may be null under its renamed alias where it may be null under its own. -/
theorem derivedAttribute_outline (hg : g.Injective) (optional : List String)
    (leaf : String × Column) :
    derivedAttribute (optional.map g) (g leaf.1, leaf.2.outline g) =
      (derivedAttribute optional leaf).outline g := by
  simp [derivedAttribute, Attribute.outline, Column.outline, List.mem_map_of_injective hg]

theorem derived_columns_outline (hg : g.Injective) (optional : List String)
    (columns : List (String × Column)) :
    ((columns.map fun leaf => (g leaf.1, leaf.2.outline g)).map
      (derivedAttribute (optional.map g))) =
        (columns.map (derivedAttribute optional)).map (Attribute.outline g) := by
  rw [List.map_map, List.map_map]
  exact List.map_congr_left fun leaf _ => derivedAttribute_outline hg optional leaf

/-- The outline of a query is a table where the query is one. -/
theorem asTable_outline (hg : g.Injective) (hd : q.dialect.Lexical) (aliasName : String) :
    ((q.outline g).asTable (g aliasName)).toOption.map (Table.outline id) =
      (q.asTable aliasName).toOption.map (Table.outline g) := by
  have hagain : ∀ a : Attribute, (a.outline g).outline id = a.outline g := by
    intro a
    simp [Attribute.outline, Function.comp_def]
  have hselect := selectSql_outline (q := q) g hd
  rw [asTable, asTable, ensureNotJoining, ensureNotJoining, effectiveProjection_outline,
    Projection.flat?_outline, optionalAliases_outline, stage_outline]
  -- a refusal names what it refuses, so it is the successes that are compared
  by_cases hjoining : q.stage = .joining
  · simp [hjoining, illegal, Except.toOption, bind, Except.bind]
  simp only [hjoining, if_false]
  cases q.effectiveProjection.flat? with
  | none => rfl
  | some columns =>
    generalize (q.outline g).selectSql = sql' at hselect
    generalize q.selectSql = sql at hselect
    cases sql' <;> cases sql <;>
      simp only [Functor.map, Except.map, reduceCtorEq, Except.ok.injEq] at hselect
    · rfl
    · simp [Except.toOption, Except.mapError, bind, Except.bind, pure, Except.pure, Table.outline,
        Origin.outline, hselect, derived_columns_outline hg, hagain]

end Query

end Discography
