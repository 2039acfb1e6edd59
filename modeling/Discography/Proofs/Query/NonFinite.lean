import Discography.Proofs.Query.Injection
import Discography.Proofs.Query.InsertedRows
import Discography.Proofs.Query.Reachable
import Discography.Proofs.Query.Reals

/-!
# What statements are refused for

A statement has all literals of a query in it, those of the conditions as well as those that are
assigned, so it is refused exactly if one of their reals is not finite. For an insertion that holds
whether its rows are grouped or not, because grouping loses no row and no cell.

A change has a target, which is checked before anything is written: a derived table is refused as a
misuse, and joined tables are not supported.

## Main definitions

* `FailsFor`: a statement is refused exactly for reals that are not finite
* `Query.FailsOnNonFinite`: so are all statements of a query
* `Query.RefusesTargets`: targets that a query cannot change, whatever the literals are

## Main results

* `Query.mem_reals_insertCommands`: the commands of an insertion have the reals of its rows
* `Query.failsOnNonFinite_of_reachable`: what the statements of a reachable query are refused for
-/

namespace Discography

/-- The outcome is an error exactly if one of the reals is not finite, and then such a real is what
the error is about. -/
structure FailsFor {α : Type} (reals : List Binary64) (result : Result α) : Prop where
  fails_iff : (∃ cause, result = .error cause) ↔ ∃ x ∈ reals, x.isFinite = false
  blames (cause : Error) (h : result = .error cause) : ∃ x ∈ reals, x.isFinite = false ∧
    cause = .noLiteral ⟨x⟩ ∧ cause.message = "Cannot escape real value " ++
      String.ofList (Decimal.Layout.plain.write x) ++ " as a SQL literal"

section

variable {α β : Type} {reals : List Binary64} {result : Result α}

theorem DecidedBy.failsFor {written : Except NoLiteral α} (h : DecidedBy reals written) :
    FailsFor reals (written.mapError .noLiteral) := by
  cases written with
  | ok a =>
    refine ⟨iff_of_false (by rintro ⟨_, ⟨⟩⟩) ?_, nofun⟩
    rintro ⟨x, hx, hinfinite⟩
    exact absurd (h x hx) (by simp [hinfinite])
  | error cause =>
    refine ⟨iff_of_true ⟨_, rfl⟩ ⟨cause.value, h⟩, ?_⟩
    rintro _ ⟨⟩
    exact ⟨cause.value, h.1, h.2, rfl, rfl⟩

theorem FailsFor.bind_pure (h : FailsFor reals result) (f : α → β) :
    FailsFor reals (do return f (← result)) := by
  cases result with
  | ok a => exact ⟨(iff_of_false (by rintro ⟨_, ⟨⟩⟩) (by rintro ⟨_, ⟨⟩⟩)).trans h.fails_iff, nofun⟩
  | error cause =>
    refine ⟨(iff_of_true ⟨_, rfl⟩ ⟨_, rfl⟩).trans h.fails_iff, ?_⟩
    rintro _ ⟨⟩
    exact h.blames cause rfl

theorem FailsFor.exists_ok (h : FailsFor reals result) (hfinite : ∀ x ∈ reals, x.isFinite) :
    ∃ a, result = .ok a := by
  cases result with
  | ok a => exact ⟨a, rfl⟩
  | error cause =>
    obtain ⟨x, hx, hinfinite⟩ := h.fails_iff.mp ⟨cause, rfl⟩
    exact absurd (hfinite x hx) (by simp [hinfinite])

theorem FailsFor.eq_error {x : Binary64} (h : FailsFor [x] result) (hx : x.isFinite = false) :
    result = .error (.noLiteral ⟨x⟩) := by
  obtain ⟨cause, hcause⟩ := h.fails_iff.mpr ⟨x, List.mem_singleton_self x, hx⟩
  obtain ⟨y, hy, -, rfl, -⟩ := h.blames cause hcause
  obtain rfl := List.mem_singleton.mp hy
  exact hcause

/-- A check in front that is passed changes nothing. -/
theorem FailsFor.of_check {check : Result Unit} {f : Unit → Result α} (hcheck : check = .ok ())
    (h : FailsFor reals (f ())) : FailsFor reals (check >>= f) := by
  rw [hcheck]
  exact h

end

/-! ### Changes -/

theorem Statement.failsFor_ofCommands (d : Dialect) (commands : List Command) :
    FailsFor (commands.flatMap Command.reals) (Statement.ofCommands d commands) :=
  ((decidedBy_mapM fun command _ => command.decidedBy_sql d).map Statement.mk).failsFor

/-! ### The rows of an insertion -/

namespace Assignments

variable {row : Assignments} {columns : List String} {x : Binary64}

theorem get?_eq_some_iff {column : String} {v : Value} :
    row.get? column = some v ↔ (column, v) ∈ row.entries := by
  rw [get?, List.lookup_eq_some_iff]
  constructor
  · rintro ⟨before, behind, hentries, -⟩
    simp [hentries]
  · intro hmem
    obtain ⟨before, behind, hentries⟩ := List.append_of_mem hmem
    refine ⟨before, behind, hentries, fun e he => ?_⟩
    -- the column is assigned once, so no earlier entry is about it
    have hnodup := row.nodup_columns
    rw [hentries, List.map_append, List.map_cons, List.nodup_append] at hnodup
    simpa using (hnodup.2.2 e.1 (List.mem_map_of_mem he) column List.mem_cons_self).symm

/-- The cells of a row have the reals of the row, as long as all its columns are listed. -/
theorem mem_reals_cells (h : ∀ column ∈ row.columns, column ∈ columns) :
    x ∈ (columns.map row.get?).flatMap Command.cellReals ↔ x ∈ row.reals := by
  simp only [reals, List.mem_flatMap, List.mem_map]
  constructor
  · rintro ⟨_, ⟨column, -, rfl⟩, hx⟩
    cases hv : row.get? column with
    | none =>
      rw [hv] at hx
      cases hx
    | some v =>
      rw [hv] at hx
      exact ⟨(column, v), get?_eq_some_iff.mp hv, hx⟩
  · rintro ⟨⟨column, v⟩, he, hx⟩
    have hget := get?_eq_some_iff.mpr he
    refine ⟨row.get? column, ⟨column, h column (List.mem_map_of_mem he), rfl⟩, ?_⟩
    rw [hget]
    exact hx

end Assignments

namespace Query

variable {q : Query} {rows : List Assignments} {columns : List String} {x : Binary64}

theorem mem_reals_insertGroup (h : ∀ row ∈ rows, ∀ column ∈ row.columns, column ∈ columns) :
    x ∈ (q.insertGroup columns rows).flatMap Command.reals ↔
      x ∈ rows.flatMap Assignments.reals := by
  have hcells : x ∈ (rows.map fun row => columns.map row.get?).flatMap
      (fun cells => cells.flatMap Command.cellReals) ↔ x ∈ rows.flatMap Assignments.reals := by
    rw [List.flatMap_map, List.mem_flatMap, List.mem_flatMap]
    exact exists_congr fun row => and_congr_right fun hrow =>
      Assignments.mem_reals_cells (h row hrow)
  rw [← hcells, insertGroup]
  split
  · -- rows of defaults have no cells, and so no literals either
    rename_i hempty
    obtain rfl : columns = [] := List.isEmpty_iff.mp (Bool.and_eq_true_iff.mp hempty).1
    simp [Command.reals]
  · rw [List.flatMap_singleton, Command.reals]

/-- Grouping the rows of an insertion loses none of their literals. -/
theorem mem_reals_insertCommands :
    x ∈ (q.insertCommands rows).flatMap Command.reals ↔ x ∈ rows.flatMap Assignments.reals := by
  rw [insertCommands]
  split
  · exact mem_reals_insertGroup fun row hrow column hcolumn =>
      mem_assignedColumns.mpr ⟨row, hrow, hcolumn⟩
  · have hgroups : ((groupRows (assignedColumns rows) rows).flatMap Prod.snd).Perm rows := by
      rw [groupRows_eq]
      exact flatMap_byKey_perm _ rows
    rw [← (hgroups.flatMap_right Assignments.reals).mem_iff, List.flatMap_assoc, List.flatMap_assoc,
      List.mem_flatMap, List.mem_flatMap]
    refine exists_congr fun g => and_congr_right fun hg => mem_reals_insertGroup ?_
    -- a group lists the columns that its rows assign
    exact fun row hrow column => (((mem_groupRows hg).2 row hrow).2 column).mpr

theorem failsFor_insertCommands (q : Query) (rows : List Assignments) :
    FailsFor (rows.flatMap Assignments.reals)
      (Statement.ofCommands q.dialect (q.insertCommands rows)) :=
  DecidedBy.failsFor (((decidedBy_mapM fun command _ => command.decidedBy_sql q.dialect).of_mem_iff
    fun _ => mem_reals_insertCommands).map Statement.mk)

/-! ### The statements of a query -/

/-- A statement is refused exactly if one of its literals has a real that is not finite, provided
that the stage of the query allows the operation, that a change has a table of the database as its
target, and that an update or deletion has no joins. -/
structure FailsOnNonFinite (q : Query) : Prop where
  render (hstage : q.stage ≠ .joining) : FailsFor q.conditionReals q.render
  renderCount (hstage : q.stage ≠ .joining) : FailsFor q.conditionReals q.renderCount
  insertMany (rows : List Assignments) (hstage : q.stage = .rooted)
    (htarget : q.primary.origin.isSubquery = false) (hne : rows ≠ [])
    (hcolumns : ∀ column ∈ rows.flatMap Assignments.columns, (q.primary.column? column).isSome) :
    FailsFor (rows.flatMap Assignments.reals) (q.insertMany rows)
  update (a : Assignments) (hstage : q.stage ≠ .joining ∧ q.stage ≠ .shaping)
    (hjoins : q.joins = []) (htarget : q.primary.origin.isSubquery = false)
    (hne : a.isEmpty = false) : FailsFor (a.reals ++ q.filterReals) (q.update a)
  delete (hstage : q.stage ≠ .joining ∧ q.stage ≠ .shaping) (hjoins : q.joins = [])
    (htarget : q.primary.origin.isSubquery = false) : FailsFor q.filterReals q.delete

/-- Changes of a derived table are a misuse, and those of joined tables are not supported. -/
structure RefusesTargets (q : Query) : Prop where
  insertMany (rows : List Assignments) (hstage : q.stage = .rooted)
    (htarget : q.primary.origin.isSubquery = true) :
    q.insertMany rows = .error (.misuse (.subqueryTarget .insert q.primary.aliasName))
  update (a : Assignments) (hstage : q.stage ≠ .joining ∧ q.stage ≠ .shaping) :
    (q.joins ≠ [] → q.update a = .error (.unsupported (.overJoins .update))) ∧
    (q.joins = [] → q.primary.origin.isSubquery = true →
      q.update a = .error (.misuse (.subqueryTarget .update q.primary.aliasName)))
  delete (hstage : q.stage ≠ .joining ∧ q.stage ≠ .shaping) :
    (q.joins ≠ [] → q.delete = .error (.unsupported (.overJoins .delete))) ∧
    (q.joins = [] → q.primary.origin.isSubquery = true →
      q.delete = .error (.misuse (.subqueryTarget .delete q.primary.aliasName)))

theorem failsOnNonFinite (q : Query) : q.FailsOnNonFinite where
  render hstage :=
    .of_check (ensureNotJoining_eq_ok.mpr hstage) (q.decidedBy_selectSql.failsFor.bind_pure _)
  renderCount hstage :=
    .of_check (ensureNotJoining_eq_ok.mpr hstage) q.decidedBy_countSql.failsFor
  insertMany rows hstage htarget hne hcolumns := by
    have hassignable : (rows.flatMap Assignments.columns).forM q.ensureAssignable = .ok () :=
      Outcome.forM_eq_ok.mpr fun column hcolumn =>
        ensureAssignable_eq_ok.mpr (hcolumns column hcolumn)
    rw [Query.insertMany, if_neg (not_not.mpr hstage)]
    refine .of_check (ensureTarget_eq_ok.mpr htarget) ?_
    rw [if_neg (by simpa using hne)]
    exact .of_check hassignable (q.failsFor_insertCommands rows)
  update a hstage hjoins htarget hne := by
    have htext := Statement.failsFor_ofCommands q.dialect [.update q.primary a q.filter]
    rw [List.flatMap_singleton] at htext
    refine .of_check (ensureFilteredTarget_eq_ok.mpr ⟨hstage.1, hstage.2, hjoins, htarget⟩) ?_
    rw [if_neg (by simp [hne])]
    exact htext
  delete hstage hjoins htarget := by
    have htext := Statement.failsFor_ofCommands q.dialect [.delete q.primary q.filter]
    rw [List.flatMap_singleton] at htext
    exact .of_check (ensureFilteredTarget_eq_ok.mpr ⟨hstage.1, hstage.2, hjoins, htarget⟩) htext

theorem ensureTarget_eq_error (op : Operation) (h : q.primary.origin.isSubquery = true) :
    q.ensureTarget op = .error (.misuse (.subqueryTarget op q.primary.aliasName)) :=
  if_pos h

/-- Joins are refused before the table is looked at. -/
theorem ensureFilteredTarget_eq_error (op : Operation)
    (hstage : q.stage ≠ .joining ∧ q.stage ≠ .shaping) :
    (q.joins ≠ [] → q.ensureFilteredTarget op = .error (.unsupported (.overJoins op))) ∧
    (q.joins = [] → q.primary.origin.isSubquery = true →
      q.ensureFilteredTarget op = .error (.misuse (.subqueryTarget op q.primary.aliasName))) := by
  have hguard : q.ensureFilteredTarget op =
      if q.joins.isEmpty then q.ensureTarget op else .error (.unsupported (.overJoins op)) := by
    rw [ensureFilteredTarget]
    cases hcases : q.stage <;> simp_all
  rw [hguard]
  refine ⟨fun hjoins => if_neg (by simpa using hjoins), fun hjoins htarget => ?_⟩
  rw [if_pos (by simpa using hjoins), ensureTarget_eq_error op htarget]

theorem refusesTargets (q : Query) : q.RefusesTargets where
  insertMany rows hstage htarget := by
    rw [Query.insertMany, if_neg (not_not.mpr hstage), ensureTarget_eq_error .insert htarget]
    rfl
  update a hstage := by
    obtain ⟨hjoins, hsubquery⟩ := ensureFilteredTarget_eq_error .update hstage
    refine ⟨fun hne => ?_, fun hnil htarget => ?_⟩
    · rw [Query.update, hjoins hne]
      rfl
    · rw [Query.update, hsubquery hnil htarget]
      rfl
  delete hstage := by
    obtain ⟨hjoins, hsubquery⟩ := ensureFilteredTarget_eq_error .delete hstage
    refine ⟨fun hne => ?_, fun hnil htarget => ?_⟩
    · rw [Query.delete, hjoins hne]
      rfl
    · rw [Query.delete, hsubquery hnil htarget]
      rfl

/-- **Statements are refused for reals that are not finite, and for nothing else.** The statement of
a reachable query, and the one that counts its rows, are refused exactly if a literal in its joins
or in its filter has such a real, at any depth. An insertion is refused exactly if a value of some
row has one, an update if an assigned value or the filter has one, and a deletion if the filter has
one. The error names the real; without one the whole text is written, and it is read as prescribed.
Changes of a derived table, and updates and deletions over joins, are refused whatever the literals
are. -/
theorem failsOnNonFinite_of_reachable {d : Dialect} (hd : d = .sqlite ∨ d = .mysql)
    (hq : q.Reachable d) : q.FailsOnNonFinite ∧ q.RefusesTargets ∧ q.ReadAsPrescribed := by
  have hlexical : d.Lexical := by
    rcases hd with rfl | rfl
    · exact Dialect.lexical_sqlite
    · exact Dialect.lexical_mysql
  exact ⟨q.failsOnNonFinite, q.refusesTargets, (hq.sound hlexical).2.readAsPrescribed⟩

/-- A real in a list, in a list, in a row behind `IN`, in the condition of a join, and a real in the
second row of an insertion. -/
theorem failsOnNonFinite_of_reachable_nested :
    let table (name : String) : Table := ⟨name, .path [name], [{ name := "x", type := .number }]⟩
    let condition (x : Binary64) : Predicate :=
      .compare (.tuple [.literal .null]) .isIn
        (.tuple [.tuple [.literal (.list [.text "n", .list [.real x]])]])
    let joined (x : Binary64) : Query :=
      { ofTable .mysql (table "a") with
        joins := [⟨.left, table "b", some (condition x)⟩], stage := .joinFiltered }
    let rows (x : Binary64) := [Assignments.empty, .ofList [("x", .real x)]]
    let nan : Binary64 := ⟨0x7ff8000000000000⟩
    let infinity : Binary64 := ⟨0xfff0000000000000⟩
    let half : Binary64 := ⟨0x3fe0000000000000⟩
    (∀ x, (joined x).Reachable .mysql) ∧
      (joined nan).render = .error (.noLiteral ⟨nan⟩) ∧ (∃ r, (joined half).render = .ok r) ∧
      (ofTable .mysql (table "a")).insertMany (rows infinity) = .error (.noLiteral ⟨infinity⟩) ∧
      ∃ s, (ofTable .mysql (table "a")).insertMany (rows half) = .ok s := by
  intro table condition joined rows nan infinity half
  have hroot : (ofTable .mysql (table "a")).Reachable .mysql := .ofTable (.ofPath "a" ["a"] _)
  have hjoined (x : Binary64) : (joined x).Reachable .mysql :=
    .apply (s := .joinOn (.predicate (condition x)))
      (.apply (s := .join .left (table "b")) hroot (by simpa [Step.table?] using .ofPath _ _ _) rfl)
      (by simp [Step.table?]) rfl
  obtain ⟨hinsertion, -, -⟩ := failsOnNonFinite_of_reachable (.inr rfl) hroot
  have hcolumn : ∀ column ∈ ["x"], ((table "a").column? column).isSome :=
    List.forall_mem_singleton.mpr rfl
  have hinsert (x : Binary64) : FailsFor [x] ((ofTable .mysql (table "a")).insertMany (rows x)) :=
    hinsertion.insertMany (rows x) rfl rfl (List.cons_ne_nil _ _) hcolumn
  have hrender (x : Binary64) : FailsFor [x] (joined x).render :=
    (failsOnNonFinite_of_reachable (.inr rfl) (hjoined x)).1.render
      (by decide : Stage.joinFiltered ≠ .joining)
  have hhalf : ∀ x ∈ [half], x.isFinite := List.forall_mem_singleton.mpr (by decide)
  exact ⟨hjoined, (hrender nan).eq_error (by decide), (hrender half).exists_ok hhalf,
    (hinsert infinity).eq_error (by decide), (hinsert half).exists_ok hhalf⟩

/-- The stage of a query is not all that its changes depend on. With finite literals only, a
deletion fails at a stage that allows it, because of a join, and so does an insertion of a row,
because the table is derived. -/
theorem targets_refused_with_finite_reals :
    let table (name : String) : Table := ⟨name, .path [name], [{ name := "x", type := .number }]⟩
    let column : Column := ⟨.path ["a"], "a", { name := "x", type := .number }⟩
    let filter : Predicate :=
      .compare (.column column) .eq (.literal (.real ⟨0x3fe0000000000000⟩))
    let joined : Query :=
      { ofTable .sqlite (table "a") with
        joins := [⟨.inner, table "b", some (.literal true)⟩], filter := some filter
        stage := .whereFiltered }
    let row : Assignments := .ofList [("x", .real ⟨0x3fe0000000000000⟩)]
    (joined.Reachable .sqlite ∧ joined.stage = .whereFiltered ∧
      (∀ x ∈ joined.filterReals, x.isFinite) ∧
      joined.delete = .error (.unsupported (.overJoins .delete))) ∧
    ∃ t, (ofTable .sqlite (table "a")).asTable "d" = .ok t ∧
      (ofTable .sqlite t).Reachable .sqlite ∧ (ofTable .sqlite t).stage = .rooted ∧
      (∀ column ∈ row.columns, (t.column? column).isSome) ∧ (∀ x ∈ row.reals, x.isFinite) ∧
      (ofTable .sqlite t).insertMany [row] = .error (.misuse (.subqueryTarget .insert "d")) := by
  intro table column filter joined row
  have hroot : (ofTable .sqlite (table "a")).Reachable .sqlite := .ofTable (.ofPath "a" ["a"] _)
  have hjoin : (ofTable .sqlite (table "a")).apply (.join .inner (table "b")) = .ok _ := rfl
  have hhalf : ∀ x ∈ [(⟨0x3fe0000000000000⟩ : Binary64)], x.isFinite :=
    List.forall_mem_singleton.mpr (by decide)
  refine ⟨⟨?_, rfl, hhalf, rfl⟩, _, rfl, .ofTable (.asTable hroot rfl), rfl,
    List.forall_mem_singleton.mpr rfl, hhalf, rfl⟩
  refine .apply (s := .restrict (.predicate filter))
    (.apply (s := .joinOn (.predicate (.literal true))) (.apply hroot ?_ hjoin) ?_ rfl) ?_ rfl
  · simpa [Step.table?] using .ofPath _ _ _
  · simp [Step.table?]
  · simp [Step.table?]

end Query

end Discography
