import Discography.Proofs.Query.Groups
import Discography.Proofs.Query.Insertion
import Discography.Query.Build
import Mathlib.Data.Finset.Basic

/-!
# Insertions insert the given rows

An insertion of several rows inserts these rows, each once and with its own literals, in every
dialect. Where `DEFAULT` may stand for a cell there is one statement with the rows in order.
Otherwise there is one statement for each set of assigned columns, and one for each row that assigns
nothing; the sets stand in the order in which they appear first, and the rows of a set keep theirs.

## Main definitions

* `Query.groupInsertions`: what the commands of a group are read as

## Main results

* `Query.rows_groupInsertions`: a group inserts its rows
* `Query.insertGroup_eq_of_complete`: rows with the same columns need no grouping
* `Query.insertMany_inserts_rows`: what is inserted in both dialects
-/

namespace Discography

/-! ### Rows -/

theorem lookup_map_self {α : Type} (f : String → α) (columns : List String) (column : String) :
    (columns.map fun c => (c, f c)).lookup column =
      if column ∈ columns then some (f column) else none := by
  induction columns with
  | nil => rfl
  | cons c columns ih =>
    by_cases heq : column = c
    · simp [heq]
    · have hne : (column == c) = false := beq_false_of_ne heq
      simp [List.lookup_cons, hne, heq, ih]

namespace Assignments

theorem get?_eq_none {row : Assignments} {column : String} (h : column ∉ row.columns) :
    row.get? column = none := by
  rw [← assigns_iff, assigns] at h
  simpa using h

/-- The cells of a row, listed for all columns that it assigns and maybe others, give each column
what the row gives to it. -/
theorem cells_eq_get? {row : Assignments} {columns : List String}
    (h : ∀ column ∈ row.columns, column ∈ columns) :
    (fun column => ((columns.zip (columns.map row.get?)).lookup column).join) = row.get? := by
  funext column
  rw [← List.map_prod_left_eq_zip, lookup_map_self]
  by_cases hmem : column ∈ columns
  · rw [if_pos hmem, Option.join_some]
  · rw [if_neg hmem, get?_eq_none fun hcolumn => hmem (h column hcolumn), Option.join_none]

theorem isFinite_of_get? {row : Assignments} (h : ∀ e ∈ row.entries, e.2.IsFinite)
    {column : String} {v : Value} (hv : row.get? column = some v) : v.IsFinite := by
  obtain ⟨before, behind, hentries, -⟩ := List.lookup_eq_some_iff.1 hv
  exact h (column, v) (by simp [hentries])

end Assignments

namespace Query

/-! ### One group -/

/-- What the commands of a group are read as. -/
def groupInsertions (d : Dialect) (target : List Token) (columns : List String)
    (rows : List Assignments) : List Insertion :=
  if columns.isEmpty && !d.defaultInRows then rows.map fun _ => .defaults target
  else [.values target columns (rows.map fun row => columns.map row.get?)]

variable {q : Query} {columns segments : List String} {rows : List Assignments}

/-- The commands of a group are read as its insertions, which the database accepts. -/
theorem forall₂_insertGroup (horigin : q.primary.origin = .path segments)
    (hnodup : columns.Nodup)
    (hcells : q.dialect.defaultInRows ∨ ∀ row ∈ rows, ∀ column ∈ columns, row.assigns column) :
    List.Forall₂ (fun command i => command.origin = .path segments ∧
        command.insertion? = some i ∧ i.accepted q.dialect)
      (q.insertGroup columns rows)
      (groupInsertions q.dialect (Token.path segments) columns rows) := by
  have htokens : q.primary.origin.tokens = Token.path segments := by
    rw [horigin]
    rfl
  rw [insertGroup, groupInsertions]
  split
  · rename_i hempty
    rw [List.forall₂_map_left_iff, List.forall₂_map_right_iff, List.forall₂_same]
    intro row _
    refine ⟨horigin, by rw [Command.insertion?, htokens], ?_⟩
    simpa [Insertion.accepted] using (Bool.and_eq_true_iff.1 hempty).2
  · rename_i hcolumns
    refine .cons ⟨horigin, by rw [Command.insertion?, htokens], ?_⟩ .nil
    have hlength : (rows.map fun row => columns.map row.get?).all
        (·.length = columns.length) = true := by
      simp
    -- a dialect without `DEFAULT` gets cells with literals only
    have hliterals : (q.dialect.defaultInRows || !columns.isEmpty &&
        (rows.map fun row => columns.map row.get?).all (·.all Option.isSome)) = true := by
      cases hdefault : q.dialect.defaultInRows with
      | true => rfl
      | false =>
        have hassigned := hcells.resolve_left (by simp [hdefault])
        have hne : columns.isEmpty = false := by simpa [hdefault] using hcolumns
        rw [hne]
        simpa [Assignments.assigns] using hassigned
    rw [Insertion.accepted, hlength, hliterals]
    simpa using hnodup

/-- A group inserts its rows. -/
theorem rows_groupInsertions {d : Dialect} {target : List Token}
    (h : ∀ row ∈ rows, ∀ column ∈ row.columns, column ∈ columns) :
    (groupInsertions d target columns rows).map Insertion.rows =
      if columns.isEmpty && !d.defaultInRows then rows.map fun row => [row.get?]
      else [rows.map Assignments.get?] := by
  rw [groupInsertions]
  split
  · rename_i hempty
    have hcolumns : columns = [] := List.isEmpty_iff.1 (Bool.and_eq_true_iff.1 hempty).1
    rw [List.map_map]
    refine List.map_congr_left fun row hrow => ?_
    have hnone : row.get? = fun _ => none := by
      funext column
      refine Assignments.get?_eq_none fun hcolumn => ?_
      have hmem := h row hrow column hcolumn
      rw [hcolumns] at hmem
      cases hmem
    rw [Function.comp_apply, Insertion.rows, hnone]
  · rw [List.map_singleton, Insertion.rows, List.map_map]
    congr 1
    exact List.map_congr_left fun row hrow => Assignments.cells_eq_get? (h row hrow)

theorem exists_sql_of_mem_insertGroup (hfinite : ∀ row ∈ rows, ∀ e ∈ row.entries, e.2.IsFinite)
    {command : Command} (h : command ∈ q.insertGroup columns rows) (d : Dialect) :
    ∃ sql, command.sql d = .ok sql := by
  rw [insertGroup] at h
  split at h
  · obtain ⟨row, -, rfl⟩ := List.mem_map.1 h
    exact ⟨_, rfl⟩
  · obtain rfl := List.mem_singleton.1 h
    refine Command.exists_sql fun cells hcells v hv => ?_
    obtain ⟨row, hrow, rfl⟩ := List.mem_map.1 hcells
    obtain ⟨column, -, hget⟩ := List.mem_map.1 hv
    exact Assignments.isFinite_of_get? (hfinite row hrow) hget

/-! ### All groups -/

/-- Rows that all assign the same columns are one group, so they need no grouping. -/
theorem insertGroup_eq_of_complete
    (hcomplete : rows.all fun row => (assignedColumns rows).all row.assigns)
    (hne : assignedColumns rows ≠ []) :
    q.insertGroup (assignedColumns rows) rows =
      (groupRows (assignedColumns rows) rows).flatMap fun g => q.insertGroup g.1 g.2 := by
  have hrows : rows ≠ [] := by
    rintro rfl
    exact hne rfl
  have hkey : ∀ row ∈ rows, (assignedColumns rows).filter row.assigns = assignedColumns rows := by
    intro row hrow
    rw [List.filter_eq_self]
    exact List.all_eq_true.1 (List.all_eq_true.1 hcomplete row hrow)
  rw [groupRows_eq, byKey_of_forall _ hrows hkey, List.flatMap_singleton]

/-- Without `DEFAULT` in rows, there are the commands of each group. -/
theorem insertCommands_of_groups (hdefault : q.dialect.defaultInRows = false) :
    q.insertCommands rows =
      (groupRows (assignedColumns rows) rows).flatMap fun g => q.insertGroup g.1 g.2 := by
  rw [insertCommands, hdefault, Bool.false_or]
  split
  · rename_i hcomplete
    obtain ⟨hall, hne⟩ := Bool.and_eq_true_iff.1 hcomplete
    exact insertGroup_eq_of_complete hall (by simpa using hne)
  · rfl

/-- The rows of a group assign its columns, each of which is listed once. -/
theorem mem_groupRows {g : List String × List Assignments}
    (h : g ∈ groupRows (assignedColumns rows) rows) :
    g.1.Nodup ∧ ∀ row ∈ g.2, row ∈ rows ∧ ∀ column, column ∈ g.1 ↔ column ∈ row.columns := by
  rw [groupRows_eq] at h
  obtain ⟨⟨first, -, hfirst⟩, hmembers⟩ := mem_byKey _ h
  refine ⟨hfirst ▸ (nodup_eraseDups _).filter _, fun row hrow => ?_⟩
  obtain ⟨hmem, hset⟩ := hmembers row hrow
  refine ⟨hmem, fun column => ?_⟩
  rw [← hset, List.mem_filter, mem_assignedColumns, Assignments.assigns_iff]
  exact ⟨And.right, fun hcolumn => ⟨⟨row, hmem, hcolumn⟩, hcolumn⟩⟩

/-- An insertion whose commands have texts is accepted and written. -/
theorem exists_insertMany (hstage : q.stage = .rooted) (hd : q.dialect.Lexical)
    (horigin : q.primary.origin = .path segments) (hne : rows ≠ [])
    (hcolumns : ∀ row ∈ rows, ∀ column ∈ row.columns, (q.primary.column? column).isSome)
    (hsql : ∀ command ∈ q.insertCommands rows, ∃ sql, command.sql q.dialect = .ok sql)
    {insertions : List Insertion}
    (hread : List.Forall₂ (fun command i => command.origin = .path segments ∧
      command.insertion? = some i ∧ i.accepted q.dialect) (q.insertCommands rows) insertions) :
    ∃ s, q.insertMany rows = .ok s ∧
      s.texts.map (Insertion.read q.dialect) = insertions.map some := by
  obtain ⟨batch, hbatch⟩ := Outcome.exists_mapM hsql
  have hcommands : Statement.ofCommands q.dialect (q.insertCommands rows) = .ok ⟨batch⟩ :=
    Statement.ofCommands_eq_ok.2 hbatch
  have htarget : q.primary.origin.isSubquery = false := by
    rw [horigin]
    rfl
  refine ⟨⟨batch⟩, insertMany_eq_ok.2 ⟨hstage, htarget, hne, fun column hcolumn => ?_, hcommands⟩,
    Statement.map_read_texts hd hcommands hread⟩
  obtain ⟨row, hrow, hmem⟩ := List.mem_flatMap.1 hcolumn
  exact hcolumns row hrow column hmem

theorem forall₂_flatMap {α β γ : Type} {R : β → γ → Prop} {f : α → List β} {g : α → List γ}
    {items : List α} (h : ∀ a ∈ items, List.Forall₂ R (f a) (g a)) :
    List.Forall₂ R (items.flatMap f) (items.flatMap g) := by
  induction items with
  | nil => exact .nil
  | cons a items ih =>
    obtain ⟨ha, hitems⟩ := List.forall_mem_cons.1 h
    rw [List.flatMap_cons, List.flatMap_cons]
    exact List.rel_append ha (ih hitems)

/-- What the commands of all groups are read as. -/
def batchInsertions (d : Dialect) (target : List Token) (rows : List Assignments) :
    List Insertion :=
  (groupRows (assignedColumns rows) rows).flatMap fun g => groupInsertions d target g.1 g.2

/-- Without `DEFAULT` in rows, each set of columns has a statement, and so has each row without. -/
theorem exists_insertMany_of_groups (hstage : q.stage = .rooted) (hd : q.dialect.Lexical)
    (hdefault : q.dialect.defaultInRows = false)
    (horigin : q.primary.origin = .path segments) (hne : rows ≠ [])
    (hcolumns : ∀ row ∈ rows, ∀ column ∈ row.columns, (q.primary.column? column).isSome)
    (hfinite : ∀ row ∈ rows, ∀ e ∈ row.entries, e.2.IsFinite) :
    ∃ s, q.insertMany rows = .ok s ∧ s.texts.map (Insertion.read q.dialect) =
      (batchInsertions q.dialect (Token.path segments) rows).map some := by
  refine exists_insertMany hstage hd horigin hne hcolumns ?_ ?_
  · intro command hcommand
    rw [insertCommands_of_groups hdefault] at hcommand
    obtain ⟨g, hg, hmem⟩ := List.mem_flatMap.1 hcommand
    have hmembers := (mem_groupRows hg).2
    exact exists_sql_of_mem_insertGroup (fun row hrow => hfinite row (hmembers row hrow).1) hmem _
  · rw [insertCommands_of_groups hdefault]
    refine forall₂_flatMap fun g hg => ?_
    obtain ⟨hnodup, hmembers⟩ := mem_groupRows hg
    refine forall₂_insertGroup horigin hnodup (.inr fun row hrow column hcolumn => ?_)
    exact Assignments.assigns_iff.2 (((hmembers row hrow).2 column).1 hcolumn)

/-- With `DEFAULT` in rows there is one statement. -/
theorem exists_insertMany_of_default (hstage : q.stage = .rooted) (hd : q.dialect.Lexical)
    (hdefault : q.dialect.defaultInRows = true)
    (horigin : q.primary.origin = .path segments) (hne : rows ≠ [])
    (hcolumns : ∀ row ∈ rows, ∀ column ∈ row.columns, (q.primary.column? column).isSome)
    (hfinite : ∀ row ∈ rows, ∀ e ∈ row.entries, e.2.IsFinite) :
    ∃ s, q.insertMany rows = .ok s ∧ s.texts.map (Insertion.read q.dialect) =
      (groupInsertions q.dialect (Token.path segments) (assignedColumns rows) rows).map some := by
  have hcommands : q.insertCommands rows = q.insertGroup (assignedColumns rows) rows := by
    rw [insertCommands, hdefault]
    rfl
  refine exists_insertMany hstage hd horigin hne hcolumns ?_ ?_
  · intro command hcommand
    rw [hcommands] at hcommand
    exact exists_sql_of_mem_insertGroup hfinite hcommand _
  · rw [hcommands]
    exact forall₂_insertGroup horigin (nodup_eraseDups _) (.inl hdefault)

/-! ### The inserted rows -/

theorem target_of_mem_groupInsertions {d : Dialect} {target : List Token} {i : Insertion}
    (h : i ∈ groupInsertions d target columns rows) : i.target = target := by
  rw [groupInsertions] at h
  split at h
  · obtain ⟨_, -, rfl⟩ := List.mem_map.1 h
    rfl
  · obtain rfl := List.mem_singleton.1 h
    rfl

/-- A group of a batch lists its set of columns, unless that is empty. -/
theorem map_columnSet?_batchInsertions {target : List Token} :
    (batchInsertions .sqlite target rows).map Insertion.columnSet? =
      (byKey Assignments.columnSet rows).flatMap fun g =>
        if g.1 = ∅ then g.2.map fun _ => none else [some g.1] := by
  rw [batchInsertions, byKey_columnSet, List.map_flatMap, List.flatMap_map]
  refine List.flatMap_congr fun g _ => ?_
  rw [groupInsertions]
  simp only [List.toFinset_eq_empty_iff]
  cases g.1 <;> simp [Dialect.sqlite, Insertion.columnSet?]

/-- A group of a batch inserts its rows. -/
theorem map_rows_batchInsertions {target : List Token} :
    (batchInsertions .sqlite target rows).map Insertion.rows =
      (byKey Assignments.columnSet rows).flatMap fun g =>
        if g.1 = ∅ then g.2.map fun row => [row.get?] else [g.2.map Assignments.get?] := by
  rw [batchInsertions, byKey_columnSet, List.map_flatMap, List.flatMap_map]
  refine List.flatMap_congr fun g hg => ?_
  have hmembers := (mem_groupRows hg).2
  rw [rows_groupInsertions fun row hrow column => ((hmembers row hrow).2 column).2]
  simp only [List.toFinset_eq_empty_iff]
  cases g.1 <;> simp [Dialect.sqlite]

/-- All groups of a batch together insert the given rows. -/
theorem flatMap_rows_batchInsertions_perm {target : List Token} :
    ((batchInsertions .sqlite target rows).flatMap Insertion.rows).Perm
      (rows.map Assignments.get?) := by
  have hgroups : (batchInsertions .sqlite target rows).flatMap Insertion.rows =
      ((byKey Assignments.columnSet rows).flatMap Prod.snd).map Assignments.get? := by
    rw [List.flatMap_def, map_rows_batchInsertions, ← List.flatMap_id, List.flatMap_assoc,
      List.map_flatMap]
    refine List.flatMap_congr fun g _ => ?_
    split
    · rw [List.flatMap_map, List.map_eq_flatMap]
      rfl
    · simp
  rw [hgroups]
  exact (flatMap_byKey_perm _ rows).map _

/-- **Insertions insert the given rows.** In SQLite, rows that assign the same columns are inserted
by one statement, and each row that assigns nothing by a statement of its own. In MySQL there is one
statement for all rows. Both insert each of the rows once, with its own literals. -/
theorem insertMany_inserts_rows {t : Table} (horigin : t.origin = .path segments)
    (hne : rows ≠ [])
    (hcolumns : ∀ row ∈ rows, ∀ column ∈ row.columns, (t.column? column).isSome)
    (hfinite : ∀ row ∈ rows, ∀ e ∈ row.entries, e.2.IsFinite) :
    ∃ (s s' : Statement) (several : List Insertion) (one : Insertion),
      ((ofTable .sqlite t).insertMany rows = .ok s ∧
        s.texts.map (Insertion.read .sqlite) = several.map some) ∧
      ((ofTable .mysql t).insertMany rows = .ok s' ∧
        s'.texts.map (Insertion.read .mysql) = [some one]) ∧
      (∀ i ∈ one :: several, i.target = Token.path segments) ∧
      several.map Insertion.columnSet? = (byKey Assignments.columnSet rows).flatMap (fun g =>
        if g.1 = ∅ then g.2.map fun _ => none else [some g.1]) ∧
      several.map Insertion.rows = (byKey Assignments.columnSet rows).flatMap (fun g =>
        if g.1 = ∅ then g.2.map fun row => [row.get?] else [g.2.map Assignments.get?]) ∧
      (several.flatMap Insertion.rows).Perm (rows.map Assignments.get?) ∧
      one.columnSet?.isSome ∧ one.rows = rows.map Assignments.get? ∧
      (several.flatMap Insertion.rows).Perm one.rows ∧
      ((rows.all fun row => (assignedColumns rows).all row.assigns) → assignedColumns rows ≠ [] →
        (ofTable .sqlite t).insertGroup (assignedColumns rows) rows =
          (groupRows (assignedColumns rows) rows).flatMap fun g =>
            (ofTable .sqlite t).insertGroup g.1 g.2) := by
  obtain ⟨s, hs, htexts⟩ := exists_insertMany_of_groups (q := ofTable .sqlite t) rfl
    Dialect.lexical_sqlite rfl horigin hne hcolumns hfinite
  obtain ⟨s', hs', htexts'⟩ := exists_insertMany_of_default (q := ofTable .mysql t) rfl
    Dialect.lexical_mysql rfl horigin hne hcolumns hfinite
  let one : Insertion := .values (Token.path segments) (assignedColumns rows)
    (rows.map fun row => (assignedColumns rows).map row.get?)
  have hone : groupInsertions .mysql (Token.path segments) (assignedColumns rows) rows = [one] := by
    rw [groupInsertions, if_neg (by simp [Dialect.mysql])]
  have hlisted : ∀ row ∈ rows, ∀ column ∈ row.columns, column ∈ assignedColumns rows :=
    fun row hrow column hcolumn => mem_assignedColumns.2 ⟨row, hrow, hcolumn⟩
  have hrows : one.rows = rows.map Assignments.get? := by
    rw [Insertion.rows, List.map_map]
    exact List.map_congr_left fun row hrow => Assignments.cells_eq_get? (hlisted row hrow)
  have hperm := @flatMap_rows_batchInsertions_perm rows (Token.path segments)
  refine ⟨s, s', batchInsertions .sqlite (Token.path segments) rows, one, ⟨hs, htexts⟩,
    ⟨hs', ?_⟩, ?_, map_columnSet?_batchInsertions, map_rows_batchInsertions, hperm, rfl, hrows, ?_,
    insertGroup_eq_of_complete⟩
  · exact htexts'.trans (congrArg _ hone)
  · intro i hi
    rcases List.mem_cons.1 hi with rfl | hi
    · rfl
    · obtain ⟨g, -, hmem⟩ := List.mem_flatMap.1 hi
      exact target_of_mem_groupInsertions hmem
  · rw [hrows]
    exact hperm

/-- Five rows: two assign both columns, in different orders, one assigns one column, and two assign
nothing. -/
theorem insertMany_inserts_rows_mixed :
    let t : Table := ⟨"t", .path ["t"], [{ name := "a", type := .string },
      { name := "b", type := .number }]⟩
    let rows : List Assignments := [⟨[("b", .integer 2), ("a", .text "it's")], by decide⟩, .empty,
      ⟨[("a", .null), ("b", .integer 1)], by decide⟩, ⟨[("b", .integer 3)], by decide⟩, .empty]
    ∃ (s s' : Statement) (several : List Insertion) (one : Insertion),
      (ofTable .sqlite t).insertMany rows = .ok s ∧
      s.texts.map (Insertion.read .sqlite) = several.map some ∧
      (ofTable .mysql t).insertMany rows = .ok s' ∧
      s'.texts.map (Insertion.read .mysql) = [some one] ∧
      several.map Insertion.columnSet? = [some {"a", "b"}, none, none, some {"b"}] ∧
      one.rows = rows.map Assignments.get? ∧ (several.flatMap Insertion.rows).Perm one.rows := by
  intro t rows
  have hcolumns : ∀ row ∈ rows, ∀ column ∈ row.columns, (t.column? column).isSome := by decide
  have hfinite : ∀ row ∈ rows, ∀ e ∈ row.entries, e.2.IsFinite := by
    simp only [rows, Assignments.empty, List.forall_mem_cons]
    simp [Value.IsFinite]
  obtain ⟨s, s', several, one, hs, hs', -, hsets, -, -, -, hrows, hperm, -⟩ :=
    insertMany_inserts_rows (t := t) rfl (List.cons_ne_nil _ _) hcolumns hfinite
  exact ⟨s, s', several, one, hs.1, hs.2, hs'.1, hs'.2, hsets.trans (by decide +kernel), hrows,
    hperm⟩

end Query

end Discography
