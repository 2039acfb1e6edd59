import Discography.Proofs.Query.Invariant
import Discography.Proofs.Query.LogLaws
import Discography.Proofs.Query.RowStatement
import Discography.Proofs.Sql.Text

/-!
# Changes ignore no part of a query

Nothing in the text of a change comes from the joins, the projection, the order or the limits of a
query, and an insertion or a truncation has no condition either. So a query that has any of these
has to refuse the change, whatever calls it was built by. An update or a deletion that is accepted
has the condition of the statements that fetch and count the rows of the query, and is about the
rows that they are about.

## Main definitions

* `Query.IsPlain`: queries without clauses that a change would lose
* `Query.Restricts`: a change with the condition of its query

## Main results

* `Query.changes_ignore_nothing`: changes that are accepted
-/

namespace Discography

namespace Query

/-- The query is about one table of the database, and has at most a filter besides. -/
structure IsPlain (q : Query) : Prop where
  isTable : q.primary.origin.isSubquery = false
  joins : q.joins = []
  projection : q.projection = none
  order : q.order = []
  limit : q.limit = none
  offset : q.offset = none

/-! ### Texts in front of the condition -/

/-- The front of the deletion. -/
def deleteFront (q : Query) : Sql := Sql.words ["DELETE", "FROM"] ++ .space :: q.primary.targetSql

/-- The front of an update. -/
def updateFront (q : Query) (a : Assignments) : Except NoLiteral Sql := do
  let assigned ← a.entries.mapM (Command.assignmentSql q.dialect.style)
  return .word "UPDATE" :: .space :: q.primary.targetSql ++
    Sql.clause ["SET"] (Sql.commas assigned)

/-- The front of the statement for the rows of one table. -/
def selectFront (q : Query) : Sql :=
  .word "SELECT" :: .space :: Sql.commas (q.effectiveProjection.leaves.map leafSql) ++
    Sql.clause ["FROM"] q.primary.sourceSql

/-- The front of the statement that counts the rows of one table. -/
def countFront (q : Query) : Sql :=
  [.word "SELECT", .space, .word "COUNT"] ++ Sql.parens [.symbol "*"] ++
    Sql.clause ["FROM"] q.primary.sourceSql

/-- The text of the filter with its keyword. -/
def filterText (q : Query) : Except NoLiteral String :=
  q.filter.elim (.ok "") fun p => (p.sql q.dialect).map fun condition => " WHERE " ++ condition.text

/-! ### Changes with a condition -/

/-- The change has the condition of the query, and is about the rows that the query counts. -/
structure Restricts (q : Query) (treatment : Treatment) (front : Sql) (s : Statement) : Prop where
  plain : q.IsPlain
  /-- The statements differ in front of the condition only. -/
  clause : ∃ clause rendered counted, q.filterText = .ok clause ∧ q.render = .ok rendered ∧
    q.renderCount = .ok counted ∧ s.texts = [front.text ++ clause] ∧
    rendered.sql.text = q.selectFront.text ++ clause ∧ counted.text = q.countFront.text ++ clause
  /-- A database reads the same table, the same name of it and the same condition. -/
  rows : q.dialect.Lexical → q.dialect.PlainRows → ∃ counted r, q.renderCount = .ok counted ∧
    s.texts.map (RowStatement.read q.dialect) = [some r] ∧ r.treatment = treatment ∧
    RowStatement.read q.dialect counted.text = some { r with treatment := .count } ∧
    r.condition.isSome = q.filter.isSome ∧
    ∀ (ρ : Type) (v : Option Token → ρ → Comparison → Truth) (rows : List ρ),
      r.selected v rows = { r with treatment := .count }.selected v rows

variable {q : Query}

/-- A query that may be changed has nothing but a filter. -/
theorem Invariant.isPlain (hq : q.Invariant) (hstage : q.stage ≠ .shaping) (hjoins : q.joins = [])
    (htable : q.primary.origin.isSubquery = false) : q.IsPlain := by
  obtain ⟨hprojection, horder, hlimit, hoffset⟩ := hq.unshaped hstage
  exact ⟨htable, hjoins, hprojection, horder, hlimit, hoffset⟩

theorem filterText_eq_ok {filter : Sql} (h : filterSql q.dialect q.filter = .ok filter) :
    q.filterText = .ok filter.text := by
  rw [filterText]
  cases hf : q.filter with
  | none =>
    rw [hf] at h
    obtain rfl := Except.ok.inj h
    rfl
  | some p =>
    rw [hf] at h
    obtain ⟨condition, hcondition, hfilter⟩ := Outcome.bind_eq_ok.1 h
    obtain rfl := Except.ok.inj hfilter
    have htext : (Sql.clause ["WHERE"] condition).text = " WHERE " ++ condition.text :=
      Sql.text_append [.space, .word "WHERE", .space] condition
    rw [Option.elim_some, hcondition, htext]
    rfl

/-- What is written for a filter begins with its keyword. -/
theorem filterText_eq_empty_iff {clause : String} (h : q.filterText = .ok clause) :
    clause = "" ↔ q.filter = none := by
  rw [filterText] at h
  cases hf : q.filter with
  | none =>
    rw [hf] at h
    obtain rfl := Except.ok.inj h
    simp
  | some p =>
    rw [hf] at h
    obtain ⟨condition, -, rfl⟩ := Outcome.map_eq_ok.1 h
    simp [String.append_eq_empty_iff]

/-- The statements of a query of one table end with its filter. -/
theorem IsPlain.statements (hq : q.IsPlain) (hstage : q.stage ≠ .joining) {filter : Sql}
    (h : filterSql q.dialect q.filter = .ok filter) :
    q.render = .ok ⟨q.selectFront ++ filter, q.mapper⟩ ∧
      q.renderCount = .ok (q.countFront ++ filter) := by
  have hsource : q.sourceSql = .ok (Sql.clause ["FROM"] q.primary.sourceSql ++ filter) := by
    rw [sourceSql, hq.joins, h]
    exact congrArg (fun sql => Except.ok (sql ++ filter)) (List.append_nil _)
  have horder : q.orderSql = [] := by rw [orderSql, hq.order]; rfl
  have hlimit : q.limitSql = [] := by rw [limitSql, hq.limit, hq.offset]; rfl
  constructor
  · refine render_eq_ok.2 ⟨hstage, ?_, rfl⟩
    rw [selectSql, hsource, horder, hlimit]
    refine congrArg Except.ok ?_
    simp [selectFront]
  · refine renderCount_eq_ok.2 ⟨hstage, ?_⟩
    rw [countSql, hsource]
    refine congrArg Except.ok ?_
    simp [countFront]

/-- One command, written as a front and the filter, restricts the query. -/
theorem restricts_of_command {command : Command} {treatment : Treatment} {front filter : Sql}
    {s : Statement} (hplain : q.IsPlain) (hstage : q.stage ≠ .joining)
    (hfilter : filterSql q.dialect q.filter = .ok filter)
    (hsql : command.sql q.dialect = .ok (front ++ filter))
    (hs : Statement.ofCommands q.dialect [command] = .ok s)
    (hread : q.dialect.Lexical → q.dialect.PlainRows → ∀ segments : List String,
      q.primary.origin = .path segments →
        RowStatement.read q.dialect (front ++ filter).text =
          some ⟨treatment, Token.path segments, some (.name q.primary.aliasName),
            formula q.dialect q.filter⟩) :
    q.Restricts treatment front s := by
  obtain ⟨hrender, hcount⟩ := hplain.statements hstage hfilter
  have htexts : s.texts = [(front ++ filter).text] := by
    obtain ⟨sql, hsql', rfl⟩ := Statement.ofCommands_singleton_eq_ok.1 hs
    obtain rfl := Except.ok.inj (hsql.symm.trans hsql')
    rfl
  refine ⟨hplain, ⟨filter.text, _, _, filterText_eq_ok hfilter, hrender, hcount, ?_, ?_, ?_⟩,
    fun hd hrows => ?_⟩
  · rw [htexts, Sql.text_append]
  · exact Sql.text_append _ _
  · exact Sql.text_append _ _
  · obtain ⟨segments, horigin⟩ : ∃ segments, q.primary.origin = .path segments := by
      have htable := hplain.isTable
      cases horigin : q.primary.origin with
      | path segments => exact ⟨segments, rfl⟩
      | subquery sql =>
        rw [horigin] at htable
        cases htable
    refine ⟨_, ⟨treatment, Token.path segments, some (.name q.primary.aliasName),
      formula q.dialect q.filter⟩, hcount, ?_, rfl, ?_, isSome_formula hrows q.filter,
      fun ρ v rows => rfl⟩
    · rw [htexts, List.map_singleton, hread hd hrows segments horigin]
    · exact read_count hd hrows horigin hplain.joins (renderCount_eq_ok.1 hcount).2

theorem restricts_of_delete {s : Statement} (hq : q.Invariant) (h : q.delete = .ok s) :
    q.Restricts .delete q.deleteFront s := by
  obtain ⟨⟨hjoining, hshaping, hjoins, htable⟩, hs⟩ := delete_eq_ok.1 h
  obtain ⟨filter, hfilter⟩ : ∃ filter, filterSql q.dialect q.filter = .ok filter := by
    obtain ⟨sql, hsql, -⟩ := Statement.ofCommands_singleton_eq_ok.1 hs
    obtain ⟨filter, hfilter, -⟩ := Outcome.bind_eq_ok.1 hsql
    exact ⟨filter, hfilter⟩
  have hsql : (Command.delete q.primary q.filter).sql q.dialect =
      .ok (q.deleteFront ++ filter) := by
    rw [Command.sql, hfilter]
    rfl
  exact restricts_of_command (hq.isPlain hshaping hjoins htable) hjoining hfilter hsql hs
    fun hd hrows segments horigin => Command.read_delete hd hrows horigin hsql

theorem restricts_of_update {a : Assignments} {s : Statement} (hq : q.Invariant)
    (h : q.update a = .ok s) :
    ∃ front, q.updateFront a = .ok front ∧ q.Restricts (.update a.entries) front s := by
  obtain ⟨⟨hjoining, hshaping, hjoins, htable⟩, ha, hs⟩ := update_eq_ok.1 h
  obtain ⟨assigned, hassigned, filter, hfilter⟩ : ∃ assigned,
      a.entries.mapM (Command.assignmentSql q.dialect.style) = .ok assigned ∧
        ∃ filter, filterSql q.dialect q.filter = .ok filter := by
    obtain ⟨sql, hsql, -⟩ := Statement.ofCommands_singleton_eq_ok.1 hs
    obtain ⟨assigned, hassigned, hsql⟩ := Outcome.bind_eq_ok.1 hsql
    obtain ⟨filter, hfilter, -⟩ := Outcome.bind_eq_ok.1 hsql
    exact ⟨assigned, hassigned, filter, hfilter⟩
  have hfront : q.updateFront a = .ok (.word "UPDATE" :: .space :: q.primary.targetSql ++
      Sql.clause ["SET"] (Sql.commas assigned)) := by
    rw [updateFront, hassigned]
    rfl
  have hsql : (Command.update q.primary a q.filter).sql q.dialect =
      .ok (.word "UPDATE" :: .space :: q.primary.targetSql ++
        Sql.clause ["SET"] (Sql.commas assigned) ++ filter) := by
    rw [Command.sql, hassigned, hfilter]
    rfl
  exact ⟨_, hfront, restricts_of_command (hq.isPlain hshaping hjoins htable) hjoining hfilter hsql
    hs fun hd hrows segments horigin => Command.read_update hd hrows horigin ha hsql⟩

/-- **Changes ignore no part of a query.** Whatever calls a query was built by, a deletion or an
update that it accepts has its filter, written as in the statements that fetch and count its rows,
and there is no other part of the query that the change could have; what a database changes are the
rows that it would count. An update assigns to each column once. An insertion or a truncation is
accepted by a query that has no filter either. -/
theorem changes_ignore_nothing {d : Dialect} {t : Table} {steps : List Step}
    (h : (ofTable d t).run steps = .ok q) :
    (q.dialect = d ∧ q.primary = t) ∧
    (∀ s, q.delete = .ok s → q.Restricts .delete q.deleteFront s) ∧
    (∀ a s, q.update a = .ok s → a.columns.Nodup ∧
      ∃ front, q.updateFront a = .ok front ∧ q.Restricts (.update a.entries) front s) ∧
    (∀ clause, q.filterText = .ok clause → (clause = "" ↔ q.filter = none)) ∧
    (∀ rows s, q.insertMany rows = .ok s → q.IsPlain ∧ q.filter = none) ∧
    ∀ s, q.truncate = .ok s → q.IsPlain ∧ q.filter = none := by
  have hq : q.Invariant := (invariant_ofTable d t).run h
  refine ⟨frame_of_run h, fun s hs => restricts_of_delete hq hs,
    fun a s hs => ⟨a.nodup_columns, restricts_of_update hq hs⟩,
    fun clause hclause => filterText_eq_empty_iff hclause, fun rows s hs => ?_, fun s hs => ?_⟩
  · obtain ⟨hstage, htable, -⟩ := insertMany_eq_ok.1 hs
    exact ⟨hq.isPlain (by simp [hstage]) (hq.joins_eq_nil hstage) htable,
      hq.unfiltered (by simp [hstage]) (by simp [hstage])⟩
  · obtain ⟨hstage, htable, -⟩ := truncate_eq_ok.1 hs
    exact ⟨hq.isPlain (by simp [hstage]) (hq.joins_eq_nil hstage) htable,
      hq.unfiltered (by simp [hstage]) (by simp [hstage])⟩

/-- A deletion from a table under an alias, with a condition made of two. -/
theorem changes_ignore_nothing_two_conditions :
    let t : Table := ⟨"a", .path ["b"], [{ name := "x", type := .number }]⟩
    ∃ (q : Query) (s : Statement),
      (ofTable .sqlite t).run [.restrict (.pattern [.field "x" (.literal (.integer 1))]),
        .or (.predicate (.literal false))] = .ok q ∧
      q.delete = .ok s ∧ q.Restricts .delete q.deleteFront s ∧
      s.texts = ["DELETE FROM `b` AS `a` WHERE `a`.`x` = 1 OR (FALSE)"] := by
  intro t
  let x : Expression := .column ⟨.path ["b"], "a", { name := "x", type := .number }⟩
  let p : Predicate := .chain (.compare x .eq (.literal (.integer 1))) [(.or, .literal false)]
  let q : Query := { ofTable .sqlite t with filter := some p, stage := .whereFiltered }
  have hrun : (ofTable .sqlite t).run [.restrict (.pattern [.field "x" (.literal (.integer 1))]),
      .or (.predicate (.literal false))] = .ok q := by rfl
  obtain ⟨s, hs, htexts⟩ : ∃ s, q.delete = .ok s ∧ s.texts =
      ["DELETE FROM `b` AS `a` WHERE `a`.`x` = 1 OR (FALSE)"] :=
    ⟨_, rfl, by decide +kernel⟩
  exact ⟨q, s, hrun, hs, (changes_ignore_nothing hrun).2.1 s hs, htexts⟩

end Query

end Discography
