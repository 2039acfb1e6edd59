import Discography.Proofs.Filter.Tokens
import Discography.Query.Mutation

/-!
# The tokens that a query prescribes

Which tokens the statements of a query and the changes of a table consist of, read off their
structure. What is written for them is read as these tokens, as long as the statement of every query
that is used as a table can be read.

## Main definitions

* `Query.selectTokens`, `Query.countTokens`: the tokens of the statements of a query
* `Command.tokens`: the tokens of a change
* `Query.Sound`: the tables of a query can be read

## Main results

* `Query.writes_selectSql`, `Query.writes_countSql`: queries
* `Command.writes_sql`: changes
-/

namespace Discography

open Sql Token

variable {style : TextStyle} {d : Dialect}

/-! ### Tables -/

/-- The statement of an origin that is a query can be read. -/
def Origin.Sound (style : TextStyle) : Origin → Prop
  | path _ => True
  | subquery sql => sql.Separated style

/-- The tokens of an origin; those of a query stand in parentheses. -/
def Origin.tokens : Origin → List Token
  | path segments => Token.path segments
  | subquery sql => parens sql.tokens

theorem Origin.writes_sql {o : Origin} (h : o.Sound style) : Writes style o.sql o.tokens := by
  cases o with
  | path segments => exact writes_path segments
  | subquery sql => exact Writes.parens ⟨h, rfl⟩

namespace Table

/-- The tokens that bring a table into scope. -/
def sourceTokens (t : Table) : List Token := t.origin.tokens ++ [keyword "AS", .name t.aliasName]

/-- The tokens of what an update or a deletion names. -/
def targetTokens (t : Table) : List Token :=
  if t.origin.lastSegment? = some t.aliasName then t.origin.tokens else t.sourceTokens

variable {t : Table}

theorem writes_sourceSql (h : t.origin.Sound style) : Writes style t.sourceSql t.sourceTokens :=
  (t.origin.writes_sql h).space_append
    ((writes_keyword (w := "AS") (by decide)).space_append (writes_name t.aliasName))

theorem writes_targetSql (h : t.origin.Sound style) : Writes style t.targetSql t.targetTokens := by
  rw [targetSql, targetTokens]
  split
  · exact t.origin.writes_sql h
  · exact writes_sourceSql h

end Table

/-! ### Queries -/

/-- The tokens of a join; one without a condition is unconditional. -/
def Join.tokens (d : Dialect) (j : Join) : List Token :=
  keywords j.kind.keywords ++ (j.table.sourceTokens ++
    (keyword "ON" :: parens (j.condition.elim [.boolean true] (Predicate.tokens d))))

/-- The tokens of a term of an order. -/
def OrderTerm.tokens (t : OrderTerm) : List Token :=
  let key := match t.key with
    | .column c => c.tokens
    | .key n => [.name n]
  match t.direction with
  | none => key
  | some .ascending => key ++ [keyword "ASC"]
  | some .descending => key ++ [keyword "DESC"]

theorem OrderTerm.writes_sql (t : OrderTerm) : Writes style t.sql t.tokens := by
  obtain ⟨key, direction⟩ := t
  have hkey : Writes style (match key with | .column c => c.sql | .key n => [.name n])
      (match key with | .column c => c.tokens | .key n => [.name n]) := by
    cases key with
    | column c => exact c.writes_sql
    | key n => exact writes_name n
  -- no direction is written where none is given
  rcases direction with _ | _ | _
  · exact hkey
  · exact hkey.space_append (writes_keyword (w := "ASC") (by decide))
  · exact hkey.space_append (writes_keyword (w := "DESC") (by decide))

namespace Query

/-- The tokens of a filter that may be absent. -/
def filterTokens (d : Dialect) (filter : Option Predicate) : List Token :=
  filter.elim [] fun p => keyword "WHERE" :: p.tokens d

/-- The tokens of the tables, joins and filter of a query. -/
def sourceTokens (q : Query) : List Token :=
  keyword "FROM" :: q.primary.sourceTokens ++ q.joins.flatMap (Join.tokens q.dialect) ++
    filterTokens q.dialect q.filter

/-- The tokens of a column of the `SELECT` list. -/
def leafTokens (leaf : List String × Column) : List Token :=
  leaf.1.getLast?.elim leaf.2.tokens fun key => leaf.2.tokens ++ [keyword "AS", .name key]

/-- The tokens of the order of a query. -/
def orderTokens (q : Query) : List Token :=
  if q.order.isEmpty then []
  else keywords ["ORDER", "BY"] ++ commas (q.order.map OrderTerm.tokens)

/-- The number of rows that is written behind `LIMIT`. -/
def writtenLimit (q : Query) : Option Int :=
  match q.limit, q.offset with
  | some n, _ => some n.toNat
  | none, some _ => q.dialect.unbounded
  | none, none => none

/-- The tokens of the limits of a query. -/
def limitTokens (q : Query) : List Token :=
  q.writtenLimit.elim [] (fun n => [keyword "LIMIT", .integer n]) ++
    q.offset.elim [] (fun n => [keyword "OFFSET", .integer n.toNat])

/-- The tokens of the statement for the rows of a query. -/
def selectTokens (q : Query) : List Token :=
  keyword "SELECT" :: commas (q.effectiveProjection.leaves.map leafTokens) ++ q.sourceTokens ++
    q.orderTokens ++ q.limitTokens

/-- The tokens of the statement that counts the rows of a query. -/
def countTokens (q : Query) : List Token :=
  [keyword "SELECT", keyword "COUNT"] ++ parens [punctuation "*"] ++ q.sourceTokens

/-- Every table of the query has an origin that can be read, and the words of the dialect are
keywords. -/
structure Sound (q : Query) : Prop where
  lexical : q.dialect.Lexical
  origins : ∀ t ∈ q.tables, t.origin.Sound q.dialect.style

variable {q : Query} {sql : Sql}

theorem writes_joinSql (hd : d.Lexical) {j : Join} (hj : j.table.origin.Sound d.style)
    (h : joinSql d j = .ok sql) : Writes d.style sql (j.tokens d) ∧ Delimited sql := by
  simp only [joinSql, Outcome.bind_eq_ok, Outcome.pure_eq_ok] at h
  obtain ⟨condition, hcondition, rfl⟩ := h
  refine ⟨?_, delimited_clause⟩
  have hkind : ∀ w ∈ j.kind.keywords, IsKeyword w := by cases j.kind <;> decide
  -- a join without a condition is written with the one that is always true
  have hwrites :
      Writes d.style condition (j.condition.elim [.boolean true] (Predicate.tokens d)) := by
    cases hc : j.condition with
    | none =>
      rw [hc] at hcondition
      exact Predicate.writes_sql hd _ hcondition
    | some p =>
      rw [hc] at hcondition
      exact Predicate.writes_sql hd _ hcondition
  exact ((Table.writes_sourceSql hj).append (hwrites.parens.clause ["ON"] (by decide))
    delimited_clause).clause _ hkind

theorem writes_joinsSql (hd : d.Lexical) : ∀ {joins : List Join} {sql : Sql},
    (∀ j ∈ joins, j.table.origin.Sound d.style) → joinsSql d joins = .ok sql →
      Writes d.style sql (joins.flatMap (Join.tokens d)) ∧ Delimited sql
  | [], _, _, h => by
    obtain rfl := Except.ok.inj h
    exact ⟨writes_nil, delimited_nil⟩
  | j :: joins, _, hsound, h => by
    simp only [joinsSql, Outcome.bind_eq_ok, Outcome.pure_eq_ok] at h
    obtain ⟨first, hfirst, rest, hrest, rfl⟩ := h
    obtain ⟨hfirst, hdelimited⟩ := writes_joinSql hd (hsound j (by simp)) hfirst
    obtain ⟨hrest, hdelimited'⟩ := writes_joinsSql hd (fun j hj => hsound j (by simp [hj])) hrest
    exact ⟨hfirst.append hrest hdelimited', hdelimited.append hdelimited'⟩

theorem writes_filterSql (hd : d.Lexical) {filter : Option Predicate}
    (h : filterSql d filter = .ok sql) :
    Writes d.style sql (filterTokens d filter) ∧ Delimited sql := by
  cases filter with
  | none =>
    obtain rfl := Except.ok.inj h
    exact ⟨writes_nil, delimited_nil⟩
  | some p =>
    simp only [filterSql, Outcome.bind_eq_ok, Outcome.pure_eq_ok] at h
    obtain ⟨condition, hcondition, rfl⟩ := h
    exact ⟨(Predicate.writes_sql hd p hcondition).clause ["WHERE"] (by decide),
      delimited_clause⟩

theorem writes_sourceSql (hq : q.Sound) (h : q.sourceSql = .ok sql) :
    Writes q.dialect.style sql q.sourceTokens ∧ Delimited sql := by
  simp only [sourceSql, Outcome.bind_eq_ok, Outcome.pure_eq_ok] at h
  obtain ⟨joins, hjoins, filter, hfilter, rfl⟩ := h
  have hprimary := Table.writes_sourceSql (hq.origins q.primary (by simp [tables]))
  -- the tables of the joins are tables of the query
  have htables : ∀ j ∈ q.joins, j.table.origin.Sound q.dialect.style := fun j hj =>
    hq.origins j.table (List.mem_cons_of_mem _ (List.mem_map_of_mem hj))
  obtain ⟨hjoins, hjoinsDelimited⟩ := writes_joinsSql hq.lexical htables hjoins
  obtain ⟨hfilter, hfilterDelimited⟩ := writes_filterSql hq.lexical hfilter
  exact ⟨((hprimary.clause ["FROM"] (by decide)).append hjoins hjoinsDelimited).append
    hfilter hfilterDelimited,
    (delimited_clause.append hjoinsDelimited).append hfilterDelimited⟩

theorem writes_leafSql (leaf : List String × Column) :
    Writes style (leafSql leaf) (leafTokens leaf) := by
  obtain ⟨path, c⟩ := leaf
  rw [leafSql, leafTokens]
  cases path.getLast? with
  | none => exact c.writes_sql
  | some key =>
    exact c.writes_sql.space_append
      ((writes_keyword (w := "AS") (by decide)).space_append (writes_name key))

theorem writes_orderSql (q : Query) :
    Writes style q.orderSql q.orderTokens ∧ Delimited q.orderSql := by
  rw [orderSql, orderTokens]
  split
  · exact ⟨writes_nil, delimited_nil⟩
  · have hterms : Writes style _ _ := writes_commas_map OrderTerm.writes_sql q.order
    exact ⟨hterms.clause _ (by decide), delimited_clause⟩

theorem writes_limitSql (q : Query) :
    Writes style q.limitSql q.limitTokens ∧ Delimited q.limitSql := by
  have hlimit : ∀ limit : Option Int,
      Writes style (limit.elim [] fun n => Sql.clause ["LIMIT"] [.integer n])
        (limit.elim [] fun n => [keyword "LIMIT", .integer n]) ∧
      Delimited (limit.elim [] fun n => Sql.clause ["LIMIT"] [.integer n]) := by
    rintro (_ | n)
    · exact ⟨writes_nil, delimited_nil⟩
    · exact ⟨(writes_integer n).clause ["LIMIT"] (by decide), delimited_clause⟩
  have hoffset : Writes style (q.offset.elim [] fun n => Sql.clause ["OFFSET"] [.integer n.toNat])
        (q.offset.elim [] fun n => [keyword "OFFSET", .integer n.toNat]) ∧
      Delimited (q.offset.elim [] fun n => Sql.clause ["OFFSET"] [.integer n.toNat]) := by
    cases q.offset with
    | none => exact ⟨writes_nil, delimited_nil⟩
    | some n =>
      exact ⟨(writes_integer n.toNat).clause ["OFFSET"] (by decide), delimited_clause⟩
  exact ⟨(hlimit _).1.append hoffset.1 hoffset.2, (hlimit _).2.append hoffset.2⟩

/-- The statement for the rows of a query is read as the tokens that the query prescribes. -/
theorem writes_selectSql (hq : q.Sound) (h : q.selectSql = .ok sql) :
    Writes q.dialect.style sql q.selectTokens := by
  simp only [selectSql, Outcome.bind_eq_ok, Outcome.pure_eq_ok] at h
  obtain ⟨source, hsource, rfl⟩ := h
  obtain ⟨hsource, hdelimited⟩ := writes_sourceSql hq hsource
  obtain ⟨horder, horderDelimited⟩ := @writes_orderSql q.dialect.style q
  obtain ⟨hlimit, hlimitDelimited⟩ := @writes_limitSql q.dialect.style q
  have hleaves : Writes q.dialect.style _ _ :=
    writes_commas_map writes_leafSql q.effectiveProjection.leaves
  have hselect : Writes q.dialect.style [.word "SELECT"] _ := writes_keyword (by decide)
  -- every clause begins with a space, also one that is left out
  exact (((hselect.space_append hleaves).append hsource hdelimited).append horder
    horderDelimited).append hlimit hlimitDelimited

/-- So is the statement that counts the rows of a query. -/
theorem writes_countSql (hq : q.Sound) (h : q.countSql = .ok sql) :
    Writes q.dialect.style sql q.countTokens := by
  simp only [countSql, Outcome.bind_eq_ok, Outcome.pure_eq_ok] at h
  obtain ⟨source, hsource, rfl⟩ := h
  obtain ⟨hsource, hdelimited⟩ := writes_sourceSql hq hsource
  have hselect : Writes q.dialect.style _ _ := writes_words ["SELECT", "COUNT"] (by decide)
  have hmark : Writes q.dialect.style [.symbol "*"] _ := writes_symbol (by simp [IsMark])
  exact (hselect.append hmark.parens delimited_parens).append hsource hdelimited

end Query

/-! ### Changes -/

namespace Command

/-- The tokens of a cell of an inserted row. -/
def cellTokens (cell : Option Value) : List Token := cell.elim [keyword "DEFAULT"] Value.tokens

/-- The tokens of an inserted row. -/
def rowTokens (cells : List (Option Value)) : List Token := parens (commas (cells.map cellTokens))

/-- The tokens of an assignment. -/
def assignmentTokens (e : String × Value) : List Token := .name e.1 :: punctuation "=" :: e.2.tokens

/-- The tokens of a change. -/
def tokens (d : Dialect) : Command → List Token
  | insert target columns rows =>
    keywords ["INSERT", "INTO"] ++ target.tokens ++
      Token.parens (commas (columns.map fun c => [.name c])) ++
      keyword "VALUES" :: commas (rows.map rowTokens)
  | insertDefaults target =>
    keywords ["INSERT", "INTO"] ++ target.tokens ++ keywords ["DEFAULT", "VALUES"]
  | update target assignments filter =>
    keyword "UPDATE" :: target.targetTokens ++
      keyword "SET" :: commas (assignments.entries.map assignmentTokens) ++
      Query.filterTokens d filter
  | delete target filter =>
    keywords ["DELETE", "FROM"] ++ target.targetTokens ++ Query.filterTokens d filter
  | truncate target => keywords d.truncation ++ target.tokens

/-- The origin of the table that a change is about. -/
def origin : Command → Origin
  | insert target _ _ => target
  | insertDefaults target => target
  | update target _ _ => target.origin
  | delete target _ => target.origin
  | truncate target => target

theorem writes_cellSql {cell : Option Value} {sql : Sql} (h : cellSql style cell = .ok sql) :
    Writes style sql (cellTokens cell) := by
  cases cell with
  | none =>
    obtain rfl := Except.ok.inj h
    exact writes_keyword (w := "DEFAULT") (by decide)
  | some v => exact v.writes_sql h

/-- What is written for each item of a list is read as the tokens of the items. -/
theorem writes_mapM {α : Type} {f : α → Except NoLiteral Sql} {g : α → List Token}
    (hf : ∀ (a : α) {sql : Sql}, f a = .ok sql → Writes style sql (g a)) {items : List α}
    {pieces : List Sql} (h : items.mapM f = .ok pieces) :
    Writes style (Sql.commas pieces) (commas (items.map g)) :=
  writes_commas (List.forall₂_map_right_iff.2
    ((Outcome.mapM_eq_ok.1 h).flip.imp fun _ _ h => hf _ h))

theorem writes_rowSql {cells : List (Option Value)} {sql : Sql} (h : rowSql style cells = .ok sql) :
    Writes style sql (rowTokens cells) := by
  simp only [rowSql, Outcome.bind_eq_ok, Outcome.pure_eq_ok] at h
  obtain ⟨pieces, hpieces, rfl⟩ := h
  exact (writes_mapM (fun _ => writes_cellSql) hpieces).parens

theorem writes_assignmentSql {e : String × Value} {sql : Sql}
    (h : assignmentSql style e = .ok sql) :
    Writes style sql (assignmentTokens e) := by
  simp only [assignmentSql, Outcome.bind_eq_ok, Outcome.pure_eq_ok] at h
  obtain ⟨value, hvalue, rfl⟩ := h
  exact (writes_name e.1).space_append
    (writes_symbol_cons (by simp [IsMark]) (writes_space_cons (e.2.writes_sql hvalue)))

/-- What is written for a change is read as the tokens that the change prescribes. -/
theorem writes_sql (hd : d.Lexical) {command : Command} (ho : command.origin.Sound d.style)
    {sql : Sql} (h : command.sql d = .ok sql) : Writes d.style sql (command.tokens d) := by
  have hinsert : Writes d.style _ _ := writes_words ["INSERT", "INTO"] (by decide)
  cases command with
  | insert target columns rows =>
    simp only [Command.sql, Outcome.bind_eq_ok, Outcome.pure_eq_ok] at h
    obtain ⟨pieces, hpieces, rfl⟩ := h
    have hcolumns : Writes d.style _ _ := (writes_commas_map writes_name columns).parens
    have hrows := (writes_mapM (fun _ => writes_rowSql) hpieces).clause ["VALUES"] (by decide)
    exact ((hinsert.space_append (target.writes_sql ho)).space_append hcolumns).append hrows
      delimited_clause
  | insertDefaults target =>
    obtain rfl := Except.ok.inj h
    exact (hinsert.space_append (target.writes_sql ho)).space_append (writes_words _ (by decide))
  | update target assignments filter =>
    simp only [Command.sql, Outcome.bind_eq_ok, Outcome.pure_eq_ok] at h
    obtain ⟨pieces, hpieces, filterSql, hfilter, rfl⟩ := h
    obtain ⟨hfilter, hdelimited⟩ := Query.writes_filterSql hd hfilter
    have hupdate : Writes d.style [.word "UPDATE"] _ := writes_keyword (by decide)
    have hassignments :=
      (writes_mapM (fun _ => writes_assignmentSql) hpieces).clause ["SET"] (by decide)
    exact ((hupdate.space_append (Table.writes_targetSql ho)).append hassignments
      delimited_clause).append hfilter hdelimited
  | delete target filter =>
    simp only [Command.sql, Outcome.bind_eq_ok, Outcome.pure_eq_ok] at h
    obtain ⟨filterSql, hfilter, rfl⟩ := h
    obtain ⟨hfilter, hdelimited⟩ := Query.writes_filterSql hd hfilter
    have hdelete : Writes d.style _ _ := writes_words ["DELETE", "FROM"] (by decide)
    exact (hdelete.space_append (Table.writes_targetSql ho)).append hfilter hdelimited
  -- the words in front are those of the dialect
  | truncate target =>
    obtain rfl := Except.ok.inj h
    simpa [tokens, Dialect.truncate, Dialect.truncateOpening] using
      (writes_words _ hd.truncation).space_append (target.writes_sql ho)

end Command

end Discography
