import Mathlib.Data.List.Nodup
import Discography.Proofs.Query.Changes
import Discography.Proofs.Query.Groups
import Discography.Proofs.Query.Outline

/-!
# Outlines of changes

The outline of a change of a table under an injective renaming. The rows of an insertion are grouped
by the columns that they assign; an injective renaming keeps the groups apart.

## Main definitions

* `Assignments.outline`, `Command.outline`, `Statement.outline`: outlines

## Main results

* `Query.insertCommands_outline`: the commands of an insertion
* `Query.insertMany_outline`, `Query.update_outline`, `Query.delete_outline`,
  `Query.truncate_outline`: changes are accepted, and written, under every injective renaming alike
-/

namespace Discography

open Token

variable {g : String → String} {d : Dialect}

/-! ### Assignments -/

/-- The assignments with renamed columns and with one literal of each kind. -/
def Assignments.outline (hg : g.Injective) (a : Assignments) : Assignments where
  entries := a.entries.map fun e => (g e.1, e.2.outline)
  nodup_columns := by
    have h := List.Nodup.map hg a.nodup_columns
    rw [List.map_map] at h ⊢
    exact h

namespace Assignments

theorem columns_outline (hg : g.Injective) (a : Assignments) :
    (a.outline hg).columns = a.columns.map g := by
  rw [columns, columns, outline, List.map_map, List.map_map]
  rfl

@[simp] theorem isEmpty_outline (hg : g.Injective) (a : Assignments) :
    (a.outline hg).isEmpty = a.isEmpty :=
  List.isEmpty_map

theorem get?_outline (hg : g.Injective) (a : Assignments) (column : String) :
    (a.outline hg).get? (g column) = (a.get? column).map Value.outline := by
  have hentries : (a.outline hg).entries = a.entries.map fun e => (g e.1, e.2.outline) := rfl
  rw [get?, get?, hentries]
  induction a.entries with
  | nil => rfl
  | cons e entries ih =>
    rw [List.map_cons, List.lookup_cons, List.lookup_cons, ih]
    by_cases h : column = e.1
    · simp [h]
    -- other columns have other names under an injective renaming
    · have hbeq : (column == e.1) = false := by simpa using h
      have hbeq' : (g column == g e.1) = false := by simpa [hg.eq_iff] using h
      rw [hbeq, hbeq']

theorem assigns_outline (hg : g.Injective) (a : Assignments) (column : String) :
    (a.outline hg).assigns (g column) = a.assigns column := by
  rw [assigns, assigns, get?_outline hg, Option.isSome_map]

end Assignments

/-! ### Commands -/

namespace Command

/-- The change of the renamed table, with one literal of each kind. -/
def outline (hg : g.Injective) : Command → Command
  | insert target columns rows =>
    insert (target.outline g) (columns.map g) (rows.map (List.map (Option.map Value.outline)))
  | insertDefaults target => insertDefaults (target.outline g)
  | update target assignments filter =>
    update (target.outline g) (assignments.outline hg) (filter.map (Predicate.outline g))
  | delete target filter => delete (target.outline g) (filter.map (Predicate.outline g))
  | truncate target => truncate (target.outline g)

theorem cellSql_outline (g : String → String) (style : TextStyle) (cell : Option Value) :
    cellSql style (cell.map Value.outline) = Sql.outline g <$> cellSql style cell := by
  cases cell with
  | none => rfl
  | some v => exact v.sql_outline g style

theorem rowSql_outline (g : String → String) (style : TextStyle) (cells : List (Option Value)) :
    rowSql style (cells.map (Option.map Value.outline)) = Sql.outline g <$> rowSql style cells := by
  rw [rowSql, rowSql, Outcome.mapM_map (cellSql_outline g style)]
  simp

theorem assignmentSql_outline (g : String → String) (style : TextStyle) (e : String × Value) :
    assignmentSql style (g e.1, e.2.outline) = Sql.outline g <$> assignmentSql style e := by
  rw [assignmentSql, assignmentSql, e.2.sql_outline g style]
  simp

/-- What is written for the outline of a change is the outline of what is written for the change. -/
theorem sql_outline (hg : g.Injective) (hd : d.Lexical) (command : Command) :
    (command.outline hg).sql d = Sql.outline g <$> command.sql d := by
  have hinsert := Sql.outline_words (g := g) ["INSERT", "INTO"] (by decide)
  have hdelete := Sql.outline_words (g := g) ["DELETE", "FROM"] (by decide)
  have hdefaults := Sql.outline_words (g := g) ["DEFAULT", "VALUES"] (by decide)
  have hvalues := fun sql : Sql => Sql.outline_clause (g := g) ["VALUES"] (by decide) sql
  have hset := fun sql : Sql => Sql.outline_clause (g := g) ["SET"] (by decide) sql
  have hupdate := Sql.outline_word (g := g) (w := "UPDATE") (by decide)
  cases command with
  | insert target columns rows =>
    have hcolumns : Sql.commas ((columns.map g).map fun c => [.name c]) =
        Sql.outline g (Sql.commas (columns.map fun c => [.name c])) := by
      simp [Function.comp_def]
    simp only [outline, Command.sql, Outcome.mapM_map (rowSql_outline g d.style), hcolumns,
      Origin.sql_outline, bind_pure_comp, Functor.map_map, Sql.outline_append, Sql.outline_cons,
      Sql.outline_space, Sql.outline_parens, hinsert, hvalues]
    simp
  | insertDefaults target =>
    rw [outline, Command.sql, Command.sql, Origin.sql_outline]
    simp [hinsert, hdefaults, Functor.map, Except.map]
  | update target assignments filter =>
    simp only [outline, Command.sql, Assignments.outline,
      Outcome.mapM_map (assignmentSql_outline g d.style), Table.targetSql_outline hg,
      Query.filterSql_outline g hd, bind_pure_comp, bind_map_left, map_bind, Functor.map_map,
      Sql.outline_append, Sql.outline_cons, Sql.outline_space, hupdate, hset, Sql.outline_commas]
  | delete target filter =>
    simp only [outline, Command.sql, Table.targetSql_outline hg, Query.filterSql_outline g hd,
      bind_pure_comp, Functor.map_map, Sql.outline_append, Sql.outline_cons, Sql.outline_space,
      hdelete]
  | truncate target =>
    rw [outline, Command.sql, Command.sql, Origin.sql_outline]
    simp [Dialect.truncate, Dialect.truncateOpening, Sql.outline_words _ hd.truncation, Functor.map,
      Except.map]

end Command

/-! ### Insertions -/

namespace Query

variable {q : Query}

theorem flatMap_columns_outline (hg : g.Injective) (rows : List Assignments) :
    (rows.map (Assignments.outline hg)).flatMap Assignments.columns =
      (rows.flatMap Assignments.columns).map g := by
  rw [List.flatMap_map, List.map_flatMap]
  exact List.flatMap_congr fun row _ => row.columns_outline hg

theorem assignedColumns_outline (hg : g.Injective) (rows : List Assignments) :
    assignedColumns (rows.map (Assignments.outline hg)) = (assignedColumns rows).map g := by
  rw [assignedColumns, assignedColumns, flatMap_columns_outline,
    eraseDups_map_of_injOn _ fun _ _ _ _ h => hg h]

/-- A group of rows with renamed columns. -/
def outlineGroup (hg : g.Injective) (group : List String × List Assignments) :
    List String × List Assignments :=
  (group.1.map g, group.2.map (Assignments.outline hg))

theorem addToGroup_outline (hg : g.Injective) (columns : List String) (row : Assignments)
    (groups : List (List String × List Assignments)) :
    addToGroup (columns.map g) (row.outline hg) (groups.map (outlineGroup hg)) =
      (addToGroup columns row groups).map (outlineGroup hg) := by
  induction groups with
  | nil => rfl
  | cons group groups ih =>
    obtain ⟨set, rows⟩ := group
    by_cases h : set = columns
    · simp [addToGroup, outlineGroup, h]
    -- sets of columns that differ keep differing under an injective renaming
    · have hmap : set.map g ≠ columns.map g := fun e => h (hg.list_map e)
      rw [List.map_cons, outlineGroup, addToGroup, addToGroup, if_neg hmap, if_neg h, ih]
      rfl

theorem filter_assigns_outline (hg : g.Injective) (row : Assignments) (all : List String) :
    (all.map g).filter (row.outline hg).assigns = (all.filter row.assigns).map g := by
  rw [List.filter_map]
  congr 1
  exact List.filter_congr fun column _ => row.assigns_outline hg column

theorem groupRows_outline (hg : g.Injective) (all : List String) (rows : List Assignments) :
    groupRows (all.map g) (rows.map (Assignments.outline hg)) =
      (groupRows all rows).map (outlineGroup hg) := by
  -- a later row meets the groups of the earlier ones, so the fold starts from any groups
  have hfold : ∀ groups : List (List String × List Assignments),
      (rows.map (Assignments.outline hg)).foldl
          (fun groups row => addToGroup ((all.map g).filter row.assigns) row groups)
          (groups.map (outlineGroup hg)) =
        (rows.foldl (fun groups row => addToGroup (all.filter row.assigns) row groups) groups).map
          (outlineGroup hg) := by
    induction rows with
    | nil => exact fun _ => rfl
    | cons row rows ih =>
      intro groups
      rw [List.map_cons, List.foldl_cons, List.foldl_cons, filter_assigns_outline,
        addToGroup_outline, ih]
  exact hfold []

theorem insertGroup_outline (hg : g.Injective) (columns : List String) (rows : List Assignments) :
    (q.outline g).insertGroup (columns.map g) (rows.map (Assignments.outline hg)) =
      (q.insertGroup columns rows).map (Command.outline hg) := by
  have hcells : ∀ row : Assignments, (columns.map g).map (row.outline hg).get? =
      (columns.map row.get?).map (Option.map Value.outline) := by
    intro row
    rw [List.map_map, List.map_map]
    exact List.map_congr_left fun column _ => row.get?_outline hg column
  rw [insertGroup, insertGroup, dialect_outline, List.isEmpty_map]
  split
  · rw [List.map_map, List.map_map]
    exact List.map_congr_left fun row _ => rfl
  · simp only [Command.outline, outline, Table.outline, List.map_map, List.map_cons, List.map_nil]
    congr 2
    exact List.map_congr_left fun row _ => by simpa using hcells row

/-- The commands of an insertion under an injective renaming. -/
theorem insertCommands_outline (hg : g.Injective) (rows : List Assignments) :
    (q.outline g).insertCommands (rows.map (Assignments.outline hg)) =
      (q.insertCommands rows).map (Command.outline hg) := by
  -- whether every row assigns every column is the same question under the new names
  have hcomplete : ((rows.map (Assignments.outline hg)).all fun row =>
        ((assignedColumns rows).map g).all row.assigns) =
      rows.all fun row => (assignedColumns rows).all row.assigns := by
    rw [List.all_map]
    congr 1
    funext row
    rw [Function.comp_apply, List.all_map]
    congr 1
    funext column
    exact row.assigns_outline hg column
  simp only [insertCommands, assignedColumns_outline, dialect_outline, hcomplete, List.isEmpty_map,
    groupRows_outline, insertGroup_outline]
  split
  · rfl
  · rw [List.flatMap_map, List.map_flatMap]
    exact List.flatMap_congr fun group _ => insertGroup_outline hg group.1 group.2

end Query

/-! ### Statements -/

/-- The outlines of the statements of a change. -/
def Statement.outline (g : String → String) (s : Statement) : Statement :=
  ⟨s.batch.map (Sql.outline g)⟩

theorem Statement.ofCommands_outline (hg : g.Injective) (hd : d.Lexical) {commands : List Command}
    {s : Statement} :
    ofCommands d (commands.map (Command.outline hg)) = .ok s ↔
      ∃ s', ofCommands d commands = .ok s' ∧ s'.outline g = s := by
  have hsql := Outcome.mapM_map (Command.sql_outline hg hd) commands
  have hmap : (commands.map (Command.outline hg)).mapM (Command.sql d) =
      (commands.mapM (Command.sql d)).map (List.map (Sql.outline g)) := hsql
  simp [ofCommands, hmap, outline]

namespace Query

variable {q : Query} {s : Statement}

/-- An insertion is accepted under every injective renaming, or under none. -/
theorem insertMany_outline (hg : g.Injective) (hd : q.dialect.Lexical) {rows : List Assignments} :
    (q.outline g).insertMany (rows.map (Assignments.outline hg)) = .ok s ↔
      ∃ s', q.insertMany rows = .ok s' ∧ s'.outline g = s := by
  -- the columns of the rows are looked up in the table under their new names
  have hcolumns : (∀ column ∈ (rows.flatMap Assignments.columns).map g,
        ((q.primary.outline g).column? column).isSome) ↔
      ∀ column ∈ rows.flatMap Assignments.columns, (q.primary.column? column).isSome := by
    simp only [List.forall_mem_map, Table.column?_outline hg, Option.isSome_map]
  rw [insertMany_eq_ok, insertCommands_outline hg, flatMap_columns_outline hg]
  simp only [insertMany_eq_ok, stage_outline, primary_outline, dialect_outline, hcolumns,
    Statement.ofCommands_outline hg hd, Table.origin_outline, Origin.isSubquery_outline, ne_eq,
    List.map_eq_nil_iff, and_assoc, exists_and_left]

theorem update_outline (hg : g.Injective) (hd : q.dialect.Lexical) {assignments : Assignments} :
    (q.outline g).update (assignments.outline hg) = .ok s ↔
      ∃ s', q.update assignments = .ok s' ∧ s'.outline g = s := by
  have hcommand : [Command.update (q.primary.outline g) (assignments.outline hg)
      (q.filter.map (Predicate.outline g))] =
        [.update q.primary assignments q.filter].map (Command.outline hg) := rfl
  simp only [update_eq_ok, stage_outline, primary_outline, dialect_outline, joins_outline,
    filter_outline, hcommand, Statement.ofCommands_outline hg hd, Table.origin_outline,
    Origin.isSubquery_outline, Assignments.isEmpty_outline, List.map_eq_nil_iff, and_assoc,
    exists_and_left]

theorem delete_outline (hg : g.Injective) (hd : q.dialect.Lexical) :
    (q.outline g).delete = .ok s ↔ ∃ s', q.delete = .ok s' ∧ s'.outline g = s := by
  have hcommand : [Command.delete (q.primary.outline g) (q.filter.map (Predicate.outline g))] =
      [.delete q.primary q.filter].map (Command.outline hg) := rfl
  simp only [delete_eq_ok, stage_outline, primary_outline, dialect_outline, joins_outline,
    filter_outline, hcommand, Statement.ofCommands_outline hg hd, Table.origin_outline,
    Origin.isSubquery_outline, List.map_eq_nil_iff, and_assoc, exists_and_left]

theorem truncate_outline (hg : g.Injective) (hd : q.dialect.Lexical) :
    (q.outline g).truncate = .ok s ↔ ∃ s', q.truncate = .ok s' ∧ s'.outline g = s := by
  have hcommand : [Command.truncate (q.primary.origin.outline g)] =
      [.truncate q.primary.origin].map (Command.outline hg) := rfl
  simp only [truncate_eq_ok, stage_outline, primary_outline, dialect_outline, hcommand,
    Statement.ofCommands_outline hg hd, Table.origin_outline, Origin.isSubquery_outline, and_assoc,
    exists_and_left]

end Query

end Discography
