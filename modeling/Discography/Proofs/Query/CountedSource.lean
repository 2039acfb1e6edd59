import Discography.Proofs.Query.DefaultProjection
import Discography.Proofs.Query.NothingIgnored
import Discography.Proofs.Query.StatementClauses

/-!
# Counts are about the rows that are fetched

The statement that counts the rows of a query and the statement for the rows themselves have the
same tables, joins and filter, written as the same text. What shapes a query is written around this
text or not at all, so no shaping changes what is counted.

## Main definitions

* `Query.HasSource`: the text that the statements of a query have in common
* `Query.ReadsSource`: what a database takes the statements for
* `Query.Limited`: no statement of a text has an offset without a limit

## Main results

* `Query.run_shaping`: shaping keeps the tables, joins and filter of a query
* `Query.count_shares_source`: the common text, after any shaping
-/

namespace Discography.Query

open Token Nested

variable {d : Dialect} {q r : Query}

/-! ### Texts -/

/-- The text of the columns of a query. -/
def columnsText (q : Query) : String :=
  (Sql.commas (q.effectiveProjection.leaves.map leafSql)).text

/-- The text of the order and the limits of a query. -/
def shapeText (q : Query) : String := (q.orderSql ++ q.limitSql).text

/-- The statements of a query have a text in common. In front of it the one has a count and the
other one the columns, and only the other one has something behind it. -/
structure HasSource (q : Query) (source : String) : Prop where
  counted : ∃ sql, q.renderCount = .ok sql ∧ sql.text = "SELECT COUNT(*)" ++ source
  rendered : ∃ s, q.render = .ok s ∧
    s.sql.text = "SELECT " ++ q.columnsText ++ source ++ q.shapeText

/-- The statements can be written if the tables, joins and filter can. -/
theorem hasSource_of_sourceSql (hstage : q.stage ≠ .joining) {sql : Sql}
    (h : q.sourceSql = .ok sql) : q.HasSource sql.text where
  counted := by
    refine ⟨_, renderCount_eq_ok.mpr ⟨hstage, by rw [countSql, h]; rfl⟩, ?_⟩
    rw [Sql.text_append]
    rfl
  rendered := by
    refine ⟨⟨_, q.mapper⟩, render_eq_ok.mpr ⟨hstage, by rw [selectSql, h]; rfl, rfl⟩, ?_⟩
    have hfront : Sql.text (.word "SELECT" :: .space ::
        Sql.commas (q.effectiveProjection.leaves.map leafSql)) = "SELECT " ++ q.columnsText :=
      Sql.text_append [.word "SELECT", .space] _
    rw [List.append_assoc, Sql.text_append, Sql.text_append, hfront]
    rfl

theorem exists_sourceSql_of_render {s : Rendered} (h : q.render = .ok s) :
    ∃ sql, q.sourceSql = .ok sql := by
  obtain ⟨-, hselect, -⟩ := render_eq_ok.mp h
  obtain ⟨sql, hsql, -⟩ := Outcome.bind_eq_ok.mp hselect
  exact ⟨sql, hsql⟩

theorem exists_sourceSql_of_renderCount {counted : Sql} (h : q.renderCount = .ok counted) :
    ∃ sql, q.sourceSql = .ok sql := by
  obtain ⟨-, hcount⟩ := renderCount_eq_ok.mp h
  obtain ⟨sql, hsql, -⟩ := Outcome.bind_eq_ok.mp hcount
  exact ⟨sql, hsql⟩

/-! ### Readings -/

/-- No statement of a text, and none inside them, has an offset without a limit in front of it. -/
def Limited (style : TextStyle) (text : String) : Prop :=
  ∃ ts, Nested.ofText style text = some ts ∧
    ∀ s ∈ ts :: ts.flatMap statements, LimitsOffsets ((clauses s).map Clause.word)

/-- A database reads the common text of the statements of a query as the same clauses in both, one
for each keyword. Behind it there are clauses for order and limits at most. -/
structure ReadsSource (q : Query) (source : String) : Prop where
  clauses : ∃ cs shape, Clause.read q.dialect.style source = some cs ∧
    cs.map Clause.word = q.sourceWords ∧
    Clause.read q.dialect.style ("SELECT COUNT(*)" ++ source) = some (countClause :: cs) ∧
    Clause.read q.dialect.style ("SELECT " ++ q.columnsText ++ source ++ q.shapeText) =
      some (q.selectClause :: cs ++ shape) ∧
    (shape.map Clause.word).Sublist ["ORDER", "BY", "LIMIT", "OFFSET"]
  limited : q.dialect.unbounded.isSome → Limited q.dialect.style ("SELECT COUNT(*)" ++ source) ∧
    Limited q.dialect.style ("SELECT " ++ q.columnsText ++ source ++ q.shapeText)

theorem sublist_shapeWords (q : Query) :
    ((q.orderClauses ++ q.limitClauses).map Clause.word).Sublist
      ["ORDER", "BY", "LIMIT", "OFFSET"] := by
  have horder : (q.orderClauses.map Clause.word).Sublist ["ORDER", "BY"] := by
    rw [orderClauses]
    split <;> simp
  have hlimit : (q.limitClauses.map Clause.word).Sublist ["LIMIT", "OFFSET"] := by
    rw [limitClauses]
    cases q.writtenLimit <;> cases q.offset <;> simp
  rw [List.map_append]
  exact horder.append hlimit

/-- A text is limited if its clauses and the statements inside it are. -/
theorem limited_of_hasClauses {tokens : List Token} {ts : List Nested} {cs : List Clause}
    {sql : Sql} (h : HasClauses (LimitedIn d) tokens ts cs)
    (hwrites : Sql.Writes d.style sql tokens)
    (hd : d.unbounded.isSome) (hcs : LimitsOffsets (cs.map Clause.word)) :
    Limited d.style sql.text := by
  refine ⟨ts, h.ofText_eq hwrites, List.forall_mem_cons.mpr ⟨?_, fun s hs => h.inner s hs hd⟩⟩
  rwa [h.clauses_eq]

theorem Reachable.readsSource (hd : d.Lexical) (hrows : d.PlainRows) (hq : q.Reachable d)
    (hstage : q.stage ≠ .joining) {sql : Sql} (h : q.sourceSql = .ok sql) :
    q.ReadsSource sql.text := by
  obtain ⟨rfl, hsound⟩ := hq.sound hd
  obtain ⟨⟨counted, hcounted, hcountedText⟩, ⟨rendered, hrendered, hrenderedText⟩⟩ :=
    hasSource_of_sourceSql hstage h
  have hcountWrites := writes_countSql hsound (renderCount_eq_ok.mp hcounted).2
  have hselectWrites := writes_selectSql hsound (render_eq_ok.mp hrendered).2.1
  obtain ⟨ts, cs, hsource, hwords⟩ := exists_hasClauses_source hrows (hq.plainOrigins hd hrows)
  obtain ⟨us, hcount⟩ := exists_hasClauses_countTokens hsource
  obtain ⟨vs, hselect⟩ := exists_hasClauses_selectTokens hsource
  constructor
  · rw [← hcountedText, ← hrenderedText]
    exact ⟨cs, _, hsource.read_eq (writes_sourceSql hsound h).1, hwords,
      hcount.read_eq hcountWrites, hselect.read_eq hselectWrites, q.sublist_shapeWords⟩
  · intro hd
    rw [← hcountedText, ← hrenderedText]
    have hcountWords : "OFFSET" ∉ (countClause :: cs).map Clause.word := by
      rw [List.map_cons, hwords]
      exact List.not_mem_cons_of_ne_of_not_mem (by decide) not_mem_sourceWords
    have hselectWords : LimitsOffsets _ :=
      hselect.clauses_eq ▸ limitedIn_select hwords hselect.clauses_eq hd
    exact ⟨limited_of_hasClauses hcount hcountWrites hd (limitsOffsets_of_not_mem hcountWords),
      limited_of_hasClauses hselect hselectWrites hd hselectWords⟩

/-! ### Shaping -/

/-- Any number of shaping operations change the shape of a query and nothing else. -/
theorem run_shaping (hq : q.Invariant) (hstage : q.stage ≠ .joining) {steps : List Step}
    (hsteps : ∀ s ∈ steps, s.isShaping) (h : q.run steps = .ok r) :
    r.stage ≠ .joining ∧ ∃ projection order limit offset stage,
      r = { q with projection, order, limit, offset, stage } := by
  induction steps generalizing q with
  | nil =>
    obtain rfl := Except.ok.inj h
    exact ⟨hstage, _, _, _, _, _, rfl⟩
  | cons s steps ih =>
    obtain ⟨hs, hsteps⟩ := List.forall_mem_cons.mp hsteps
    obtain ⟨q', hfirst, hrest⟩ := run_cons.mp h
    have hq' := hq.apply hfirst
    obtain ⟨-, projection, order, limit, offset, rfl⟩ := shape_of_apply hq hs hfirst
    obtain ⟨hrstage, hshape⟩ := ih hq' (by simp) hsteps hrest
    exact ⟨hrstage, hshape⟩

/-- Shaping brings no table into scope. -/
theorem Step.table?_eq_none {s : Step} (hs : s.isShaping) : s.table? = none := by
  cases s with
  | join kind t => cases hs
  | _ => rfl

/-- The dialects of the library have a limit that means all rows. -/
theorem unbounded_of_library (h : d = .sqlite ∨ d = .mysql) :
    d.Lexical ∧ d.PlainRows ∧ d.unbounded.isSome := by
  rcases h with rfl | rfl
  · exact ⟨Dialect.lexical_sqlite, .inr rfl, rfl⟩
  · exact ⟨Dialect.lexical_mysql, .inl rfl, rfl⟩

/-- **Count and rows have a common source.** A query that waits for no condition can be counted if
and only if it can be fetched. Both statements are then the same text behind the count and behind
the columns, and a database reads in this text the tables, the joins and the filter of the query.
What follows it in the statement for the rows are an order and limits. No shaping changes the text,
and in the dialects of the library no offset stands without a limit. -/
theorem count_shares_source (hq : q.Reachable d) (hstage : q.stage ≠ .joining) :
    ((∃ counted, q.renderCount = .ok counted) ↔ ∃ rendered, q.render = .ok rendered) ∧
    ∀ rendered, q.render = .ok rendered → ∃ source : String, ∀ (steps : List Step) (r : Query),
      (∀ s ∈ steps, s.isShaping) → q.run steps = .ok r →
        r.HasSource source ∧ (d.Lexical → d.PlainRows → r.ReadsSource source) ∧
        (d = .sqlite ∨ d = .mysql → Limited d.style ("SELECT COUNT(*)" ++ source) ∧
          Limited d.style ("SELECT " ++ r.columnsText ++ source ++ r.shapeText)) := by
  refine ⟨⟨fun ⟨counted, hcounted⟩ => ?_, fun ⟨rendered, hrendered⟩ => ?_⟩, ?_⟩
  · obtain ⟨sql, hsql⟩ := exists_sourceSql_of_renderCount hcounted
    obtain ⟨s, hs, -⟩ := (hasSource_of_sourceSql hstage hsql).rendered
    exact ⟨s, hs⟩
  · obtain ⟨sql, hsql⟩ := exists_sourceSql_of_render hrendered
    obtain ⟨counted, hcounted, -⟩ := (hasSource_of_sourceSql hstage hsql).counted
    exact ⟨counted, hcounted⟩
  · intro rendered hrendered
    obtain ⟨sql, hsql⟩ := exists_sourceSql_of_render hrendered
    refine ⟨sql.text, fun steps r hsteps hr => ?_⟩
    obtain ⟨hrstage, hshape⟩ := run_shaping hq.invariant hstage hsteps hr
    have hrq : r.Reachable d := hq.run
      (fun s hs t ht => by rw [Step.table?_eq_none (hsteps s hs)] at ht; cases ht) hr
    -- the source is written from what shaping keeps
    have hrsql : r.sourceSql = .ok sql := by
      obtain ⟨projection, order, limit, offset, stage, rfl⟩ := hshape
      exact hsql
    have hread := fun hd hrows => hrq.readsSource (d := d) hd hrows hrstage hrsql
    refine ⟨hasSource_of_sourceSql hrstage hrsql, hread, fun hlibrary => ?_⟩
    obtain ⟨hd, hrows, hunbounded⟩ := unbounded_of_library hlibrary
    obtain ⟨hdialect, -⟩ := hrq.sound hd
    have hlimited := (hread hd hrows).limited
    rw [hdialect] at hlimited
    exact hlimited hunbounded

/-- A filtered query of the rows behind the first one of a table, when it is paged. -/
theorem count_shares_source_rows_behind_first :
    let steps : List Step := [.orderBy ⟨.key "x", some .descending⟩, .skip 6, .take 3]
    ∃ (q r : Query) (source : String), q.Reachable .sqlite ∧ q.stage ≠ .joining ∧
      q.run steps = .ok r ∧ r.HasSource source ∧ r.ReadsSource source ∧
      (∃ s, r.render = .ok s ∧ s.sql.text = "SELECT `b`.`x` AS `x` FROM " ++
        "(SELECT `a`.`x` AS `x` FROM `a` AS `a` LIMIT -1 OFFSET 1) AS `b` WHERE FALSE" ++
        " ORDER BY `x` DESC LIMIT 3 OFFSET 6") ∧
      Limited .doubled ("SELECT " ++ r.columnsText ++ source ++ r.shapeText) := by
  intro steps
  have ha : (Table.mk "a" (.path ["a"]) [{ name := "x", type := .number }]).Available .sqlite :=
    .ofPath _ _ _
  have hbehind : Reachable .sqlite _ := (Reachable.ofTable ha).apply (s := .skip 1) nofun rfl
  have hb : Table.Available .sqlite _ := @Table.Available.asTable _ _ _ "b" hbehind rfl
  have hq : Reachable .sqlite _ :=
    (Reachable.ofTable hb).apply (s := .restrict (.predicate (.literal false))) nofun rfl
  obtain ⟨-, hsource⟩ := count_shares_source hq nofun
  obtain ⟨source, hshaped⟩ := hsource _ rfl
  obtain ⟨hshared, hread, hlimited⟩ := hshaped steps _ (by decide) rfl
  exact ⟨_, _, source, hq, nofun, rfl, hshared,
    hread Dialect.lexical_sqlite (.inr rfl), ⟨_, rfl, by decide +kernel⟩, (hlimited (.inl rfl)).2⟩

end Discography.Query
