import Discography.Proofs.Query.Insertion
import Discography.Proofs.Query.Reachable
import Discography.Proofs.Query.ScopedQuery

/-!
# The clauses of the statements of a query

What a database takes the statements of a query for when it cuts them into clauses. Nothing that
stands in a clause begins another one: names and literals are tokens of their own, conditions are
free of the keywords of clauses, and the statement of a query that is used as a table stands in
parentheses. So the clauses are those that the query was built of, whatever its names, literals and
tables are.

## Main definitions

* `Nested.ofText`, `Clause.read`: the trees and the clauses of a text
* `Nested.HasClauses`: tokens that are clauses wherever they stand
* `Query.sourceWords`: the keywords for the tables, joins and filter of a query
* `Query.selectClause`, `Query.orderClauses`, `Query.limitClauses`: the other clauses of the
  statement for its rows
* `LimitsOffsets`: no offset without a limit

## Main results

* `Query.exists_hasClauses_source`, `Query.hasClauses_order`, `Query.hasClauses_limit`: the clauses
  of a query
* `Query.Reachable.plainOrigins`: no table of a reachable query begins a clause
-/

namespace Discography

open Token Nested

/-- The trees of a text. -/
def Nested.ofText (style : TextStyle) (text : String) : Option (List Nested) :=
  (Lexer.lex style text).bind Nested.ofTokens

/-- The clauses of a text. -/
def Clause.read (style : TextStyle) (text : String) : Option (List Clause) :=
  (Nested.ofText style text).map Nested.clauses

namespace Nested

variable {P : List Nested → Prop} {s t : List Token} {ts us : List Nested} {cs ds : List Clause}

/-- Wherever the tokens stand in front of the end or of another clause, they are the given trees and
the given clauses. The statements inside the trees, at any depth, have the given property. -/
structure HasClauses (P : List Nested → Prop) (tokens : List Token) (ts : List Nested)
    (cs : List Clause) : Prop where
  nests : Nests tokens ts
  begins : BeginsClause ts
  clauses_append : ∀ behind, BeginsClause behind → clauses (ts ++ behind) = cs ++ clauses behind
  inner : ∀ s ∈ ts.flatMap statements, P s

theorem hasClauses_nil : HasClauses P [] [] [] :=
  ⟨nests_nil, beginsClause_nil, fun _ _ => rfl, nofun⟩

theorem HasClauses.append (hs : HasClauses P s ts cs) (ht : HasClauses P t us ds) :
    HasClauses P (s ++ t) (ts ++ us) (cs ++ ds) where
  nests := hs.nests.append ht.nests
  begins := hs.begins.append ht.begins
  clauses_append behind hbehind := by
    rw [List.append_assoc, hs.clauses_append _ (ht.begins.append hbehind),
      ht.clauses_append behind hbehind, List.append_assoc]
  inner := by
    rw [List.flatMap_append]
    exact List.forall_mem_append.mpr ⟨hs.inner, ht.inner⟩

/-- A keyword and what is free of keywords are one clause. -/
theorem hasClauses_clause {word : String} (hword : word ∈ clauseWords) (hs : Nests s ts)
    (hplain : IsPlain ts) (hinner : ∀ s ∈ ts.flatMap statements, P s) :
    HasClauses P (keyword word :: s) (.token (keyword word) :: ts) [⟨word, ts⟩] where
  nests := (nests_token (isInner_keyword word)).append hs
  begins := by
    rintro _ ⟨⟩
    rw [clauseWord?, if_pos hword]
    rfl
  clauses_append _ hbehind := clauses_cons_append hword hplain hbehind
  inner := hinner

theorem hasClauses_fragment {word : String} (hword : word ∈ clauseWords) {ms : List Mention}
    (hs : IsFragment s ts ms) :
    HasClauses P (keyword word :: s) (.token (keyword word) :: ts) [⟨word, ts⟩] :=
  hasClauses_clause hword hs.nests hs.plain (by rw [hs.statements]; exact nofun)

theorem HasClauses.clauses_eq (h : HasClauses P s ts cs) : clauses ts = cs := by
  simpa [clauses] using h.clauses_append [] beginsClause_nil

/-- What is written for clauses is read as these clauses. -/
theorem HasClauses.ofText_eq (h : HasClauses P s ts cs) {style : TextStyle} {sql : Sql}
    (hwrites : Sql.Writes style sql s) : Nested.ofText style sql.text = some ts := by
  rw [Nested.ofText, hwrites.lex_text, Option.bind_some, h.nests.ofTokens_eq]

theorem HasClauses.read_eq (h : HasClauses P s ts cs) {style : TextStyle} {sql : Sql}
    (hwrites : Sql.Writes style sql s) : Clause.read style sql.text = some cs := by
  rw [Clause.read, h.ofText_eq hwrites, Option.map_some, h.clauses_eq]

end Nested

variable {P : List Nested → Prop}

/-! ### Tables and joins -/

/-- What stands in the place of a table begins no clause, and a statement inside it has the given
property. -/
def Origin.Plain (P : List Nested → Prop) (o : Origin) : Prop :=
  ∃ ts, Nests o.tokens ts ∧ IsPlain ts ∧ ∀ s ∈ ts.flatMap statements, P s

theorem Origin.plain_path (segments : List String) : (Origin.path segments).Plain P := by
  refine ⟨_, Command.nests_path segments, List.forall_mem_map.mpr fun s hs => ?_, ?_⟩
  · rcases Command.mem_path hs with ⟨n, rfl⟩ | rfl <;> rfl
  · simp [List.flatMap_map]

theorem Table.exists_hasClauses {t : Table} (ht : t.origin.Plain P) (word : String)
    (hword : word ∈ clauseWords) :
    ∃ body, Nests t.sourceTokens body ∧
      HasClauses P (keyword word :: t.sourceTokens) (.token (keyword word) :: body)
        [⟨word, body⟩] := by
  obtain ⟨ts, hnests, hplain, hinner⟩ := ht
  have halias : IsFragment [keyword "AS", name t.aliasName] _ _ :=
    (isFragment_keyword (w := "AS") (by decide)).append (isFragment_name t.aliasName)
  refine ⟨_, hnests.append halias.nests, hasClauses_clause hword (hnests.append halias.nests)
    (List.forall_mem_append.mpr ⟨hplain, halias.plain⟩) ?_⟩
  rw [List.flatMap_append, halias.statements, List.append_nil]
  exact hinner

namespace Query

variable {d : Dialect} {q : Query}

theorem exists_hasClauses_join (hd : d.PlainRows) {j : Join} (hj : j.table.origin.Plain P) :
    ∃ ts cs, HasClauses P (j.tokens d) ts cs ∧ cs.map Clause.word = j.kind.keywords ++ ["ON"] := by
  obtain ⟨word, hkeywords, hword⟩ : ∃ word, j.kind.keywords = [word, "JOIN"] ∧
      word ∈ clauseWords := by
    cases j.kind with
    | inner => exact ⟨"INNER", rfl, by decide⟩
    | left => exact ⟨"LEFT", rfl, by decide⟩
    | right => exact ⟨"RIGHT", rfl, by decide⟩
  obtain ⟨condition, hcondition⟩ : ∃ ts, IsFragment
      (j.condition.elim [.boolean true] (Predicate.tokens d)) ts
      ((j.condition.elim [] Predicate.columns).map Column.mention) := by
    cases j.condition with
    | none => exact (Value.boolean true).exists_isFragment
    | some p => exact p.exists_isFragment hd
  -- the kind of a join is a clause without a body, in front of that with the table
  have hkind : HasClauses P [keyword word] _ _ := hasClauses_fragment hword isFragment_nil
  obtain ⟨body, -, htable⟩ := Table.exists_hasClauses hj "JOIN" (by decide)
  have hon : HasClauses P (keyword "ON" :: _) _ _ :=
    hasClauses_fragment (by decide) hcondition.parens
  have htokens : j.tokens d = [keyword word] ++ keyword "JOIN" :: j.table.sourceTokens ++
      keyword "ON" :: parens (j.condition.elim [.boolean true] (Predicate.tokens d)) := by
    rw [Join.tokens, hkeywords]
    simp [keywords]
  rw [htokens, hkeywords]
  exact ⟨_, _, (hkind.append htable).append hon, rfl⟩

theorem exists_hasClauses_joins (hd : d.PlainRows) {joins : List Join}
    (hjoins : ∀ j ∈ joins, j.table.origin.Plain P) :
    ∃ ts cs, HasClauses P (joins.flatMap (Join.tokens d)) ts cs ∧
      cs.map Clause.word = joins.flatMap fun j => j.kind.keywords ++ ["ON"] := by
  induction joins with
  | nil => exact ⟨_, _, hasClauses_nil, rfl⟩
  | cons j joins ih =>
    obtain ⟨hj, hjoins⟩ := List.forall_mem_cons.mp hjoins
    obtain ⟨ts, cs, hfirst, hwords⟩ := exists_hasClauses_join hd hj
    obtain ⟨us, ds, hrest, hmore⟩ := ih hjoins
    refine ⟨_, _, hfirst.append hrest, ?_⟩
    rw [List.map_append, hwords, hmore, List.flatMap_cons]

/-- The keywords for the tables, joins and filter of a query. -/
def sourceWords (q : Query) : List String :=
  "FROM" :: (q.joins.flatMap fun j => j.kind.keywords ++ ["ON"]) ++
    if q.filter.isSome then ["WHERE"] else []

/-- The tables and joins of a query and its filter are one clause for each keyword. -/
theorem exists_hasClauses_source (hd : q.dialect.PlainRows)
    (htables : ∀ t ∈ q.tables, t.origin.Plain P) :
    ∃ ts cs, HasClauses P q.sourceTokens ts cs ∧ cs.map Clause.word = q.sourceWords := by
  obtain ⟨body, -, hfrom⟩ := Table.exists_hasClauses (htables q.primary List.mem_cons_self)
    "FROM" (by decide)
  obtain ⟨us, ds, hjoins, hwords⟩ := exists_hasClauses_joins hd fun j (hj : j ∈ q.joins) =>
    htables j.table (List.mem_cons_of_mem _ (List.mem_map_of_mem hj))
  obtain ⟨vs, es, hfilter, hmore⟩ : ∃ vs es, HasClauses P (filterTokens q.dialect q.filter) vs es ∧
      es.map Clause.word = if q.filter.isSome then ["WHERE"] else [] := by
    cases q.filter with
    | none => exact ⟨_, _, hasClauses_nil, rfl⟩
    | some p =>
      obtain ⟨vs, hvs⟩ := p.exists_isFragment hd
      exact ⟨_, _, hasClauses_fragment (by decide) hvs, rfl⟩
  refine ⟨_, _, (hfrom.append hjoins).append hfilter, ?_⟩
  rw [List.map_append, List.map_append, hwords, hmore]
  rfl

/-! ### Columns, order and limits -/

/-- The clause for the columns of a query. -/
def selectClause (q : Query) : Clause :=
  ⟨"SELECT", Nested.commas
    (q.effectiveProjection.leaves.map fun leaf => (leafTokens leaf).map .token)⟩

/-- The clause for a count. -/
def countClause : Clause :=
  ⟨"SELECT", [.token (keyword "COUNT"), .parens [.token (punctuation "*")]]⟩

/-- The clauses for the order of a query. -/
def orderClauses (q : Query) : List Clause :=
  if q.order.isEmpty then []
  else [⟨"ORDER", []⟩, ⟨"BY", Nested.commas (q.order.map fun t => t.tokens.map .token)⟩]

/-- The clauses for the limits of a query. -/
def limitClauses (q : Query) : List Clause :=
  q.writtenLimit.elim [] (fun n => [⟨"LIMIT", [.token (.integer n)]⟩]) ++
    q.offset.elim [] (fun n => [⟨"OFFSET", [.token (.integer n.toNat)]⟩])

/-- The columns of a query are one clause. -/
theorem hasClauses_select (q : Query) :
    HasClauses P (keyword "SELECT" :: commas (q.effectiveProjection.leaves.map leafTokens))
      (.token (keyword "SELECT") :: q.selectClause.body) [q.selectClause] := by
  have hleaves : IsFragment (commas (q.effectiveProjection.leaves.map leafTokens))
      q.selectClause.body _ :=
    isFragment_commas (List.forall₂_map_right_iff.mpr
      (List.forall₂_same.mpr fun leaf _ => isFragment_leafTokens leaf))
  exact hasClauses_fragment (by decide) hleaves

/-- So is a count. -/
theorem hasClauses_count :
    HasClauses P ([keyword "SELECT", keyword "COUNT"] ++ parens [punctuation "*"])
      (.token (keyword "SELECT") :: countClause.body) [countClause] := by
  have hcount : IsFragment (keyword "COUNT" :: parens [punctuation "*"]) countClause.body _ :=
    (isFragment_keyword (w := "COUNT") (by decide)).append
      (isFragment_token (t := punctuation "*") (by decide) rfl (by decide)).parens
  exact hasClauses_fragment (by decide) hcount

theorem hasClauses_order (q : Query) : ∃ ts, HasClauses P q.orderTokens ts q.orderClauses := by
  rw [orderTokens, orderClauses]
  split
  · exact ⟨_, hasClauses_nil⟩
  · have hterms : IsFragment (commas (q.order.map OrderTerm.tokens)) (Nested.commas _) _ :=
      isFragment_commas (List.forall₂_map_right_iff.mpr
        (List.forall₂_same.mpr fun t _ => t.isFragment_tokens))
    have horder : HasClauses P [keyword "ORDER"] _ _ :=
      hasClauses_fragment (by decide) isFragment_nil
    have hby : HasClauses P (keyword "BY" :: commas (q.order.map OrderTerm.tokens)) _ _ :=
      hasClauses_fragment (by decide) hterms
    exact ⟨_, horder.append hby⟩

theorem hasClauses_limit (q : Query) : ∃ ts, HasClauses P q.limitTokens ts q.limitClauses := by
  have hnumber : ∀ word ∈ clauseWords, ∀ n : Option Int,
      ∃ ts, HasClauses P (n.elim [] fun n => [keyword word, .integer n]) ts
        (n.elim [] fun n => [⟨word, [.token (.integer n)]⟩]) := by
    intro word hword n
    cases n with
    | none => exact ⟨_, hasClauses_nil⟩
    | some n =>
      exact ⟨_, hasClauses_fragment hword (isFragment_token ⟨nofun, nofun⟩ rfl nofun)⟩
  obtain ⟨ts, hlimit⟩ := hnumber "LIMIT" (by decide) q.writtenLimit
  obtain ⟨us, hoffset⟩ := hnumber "OFFSET" (by decide) (q.offset.map fun n => n.toNat)
  rw [Option.elim_map, Option.elim_map] at hoffset
  exact ⟨_, hlimit.append hoffset⟩

/-- The clauses of the statement for the rows of a query, given those of its tables. -/
theorem exists_hasClauses_selectTokens {ts : List Nested} {cs : List Clause}
    (hsource : HasClauses P q.sourceTokens ts cs) :
    ∃ ts, HasClauses P q.selectTokens (.token (keyword "SELECT") :: ts)
      (q.selectClause :: cs ++ (q.orderClauses ++ q.limitClauses)) := by
  obtain ⟨us, horder⟩ := q.hasClauses_order (P := P)
  obtain ⟨vs, hlimit⟩ := q.hasClauses_limit (P := P)
  have happend := ((q.hasClauses_select.append hsource).append horder).append hlimit
  rw [List.append_assoc _ q.orderClauses] at happend
  exact ⟨_, happend⟩

/-- The clauses of the statement that counts the rows of a query, given those of its tables. -/
theorem exists_hasClauses_countTokens {ts : List Nested} {cs : List Clause}
    (hsource : HasClauses P q.sourceTokens ts cs) :
    ∃ ts, HasClauses P q.countTokens ts (countClause :: cs) :=
  ⟨_, hasClauses_count.append hsource⟩

end Query

/-! ### Offsets -/

/-- Each `OFFSET` among keywords stands directly behind a `LIMIT`. -/
def LimitsOffsets (words : List String) : Prop :=
  ∀ front behind, words = front ++ "OFFSET" :: behind → front.getLast? = some "LIMIT"

theorem limitsOffsets_of_not_mem {words : List String} (h : "OFFSET" ∉ words) :
    LimitsOffsets words := by
  rintro front behind rfl
  exact absurd (List.mem_append_right front List.mem_cons_self) h

theorem LimitsOffsets.append {words more : List String} (hwords : LimitsOffsets words)
    (hmore : LimitsOffsets more) : LimitsOffsets (words ++ more) := by
  intro front behind h
  rcases List.append_eq_append_iff.mp h with ⟨rest, rfl, hrest⟩ | ⟨rest, hrest, hbehind⟩
  · rw [List.getLast?_append, hmore rest behind hrest]
    rfl
  · cases rest with
    | nil => exact absurd (hmore [] behind hbehind.symm) nofun
    | cons word rest =>
      obtain ⟨rfl, -⟩ := List.cons.inj hbehind
      exact hwords front rest hrest

namespace Query

variable {d : Dialect} {q : Query}

theorem not_mem_sourceWords : "OFFSET" ∉ q.sourceWords := by
  have hjoins : "OFFSET" ∉ q.joins.flatMap fun j => j.kind.keywords ++ ["ON"] := by
    intro h
    obtain ⟨j, -, h⟩ := List.mem_flatMap.mp h
    revert h
    cases j.kind <;> decide
  rw [sourceWords]
  split <;> simpa using hjoins

/-- A query writes an offset behind a limit if its dialect has a limit that means all rows. -/
theorem limitsOffsets_limitClauses (hd : q.dialect.unbounded.isSome) :
    LimitsOffsets (q.limitClauses.map Clause.word) := by
  obtain ⟨n, hn⟩ := Option.isSome_iff_exists.mp hd
  rw [limitClauses, writtenLimit]
  cases q.offset with
  | none => cases q.limit <;> exact limitsOffsets_of_not_mem (by simp)
  | some offset =>
    have hwords : LimitsOffsets ["LIMIT", "OFFSET"] := by
      rintro (_ | ⟨a, _ | ⟨b, front⟩⟩) behind h <;> simp_all
    cases q.limit with
    | none => simpa [hn] using hwords
    | some limit => simpa using hwords

/-- The statements in dialects that have a limit that means all rows have no offset without a
limit. -/
def LimitedIn (d : Dialect) (s : List Nested) : Prop :=
  d.unbounded.isSome → LimitsOffsets ((clauses s).map Clause.word)

theorem limitedIn_select {cs : List Clause} (hwords : cs.map Clause.word = q.sourceWords)
    {ts : List Nested}
    (hts : clauses ts = q.selectClause :: cs ++ (q.orderClauses ++ q.limitClauses)) :
    LimitedIn q.dialect ts := by
  intro hd
  have horder : "OFFSET" ∉ q.orderClauses.map Clause.word := by
    rw [orderClauses]
    split <;> simp
  have hselect : "OFFSET" ∉ q.selectClause.word :: q.sourceWords := by
    simpa [selectClause] using not_mem_sourceWords (q := q)
  rw [hts, List.map_append, List.map_append, List.map_cons, hwords]
  exact (limitsOffsets_of_not_mem hselect).append
    ((limitsOffsets_of_not_mem horder).append (limitsOffsets_limitClauses hd))

end Query

/-! ### Reachable queries -/

mutual

/-- The tables of a reachable query begin no clause, and their statements have no offset without a
limit. -/
theorem Query.Reachable.plainOrigins {d : Dialect} (hd : d.Lexical) (hrows : d.PlainRows) :
    ∀ {q : Query}, q.Reachable d → ∀ t ∈ q.tables, t.origin.Plain (Query.LimitedIn d)
  | _, .ofTable ht => by
    have horigin := ht.plainOrigin hd hrows
    simpa [Query.tables, Query.ofTable] using horigin
  | _, .apply hq hs h => by
    rw [(Query.apply_frame h).2]
    intro t ht
    rcases List.mem_append.mp ht with ht | ht
    · exact hq.plainOrigins hd hrows t ht
    · exact (hs t (by simpa using ht)).plainOrigin hd hrows

/-- A statement in the place of a table is in parentheses, and can be read there. -/
theorem Table.Available.plainOrigin {d : Dialect} (hd : d.Lexical) (hrows : d.PlainRows) :
    ∀ {t : Table}, t.Available d → t.origin.Plain (Query.LimitedIn d)
  | _, .ofPath _ segments _ => Origin.plain_path segments
  | _, .withAlias _ ht => by
    have horigin := ht.plainOrigin hd hrows
    exact horigin
  | _, .asTable hq h => by
    obtain ⟨hdialect, hsound⟩ := hq.sound hd
    obtain ⟨-, _, -, sql, hsql, rfl⟩ := Query.asTable_eq_ok.1 h
    obtain ⟨ts, cs, hsource, hwords⟩ := Query.exists_hasClauses_source (hdialect ▸ hrows)
      (hq.plainOrigins hd hrows)
    obtain ⟨us, hselect⟩ := Query.exists_hasClauses_selectTokens hsource
    have hnests : Nests sql.tokens (.token (keyword "SELECT") :: us) := by
      rw [(Query.writes_selectSql hsound hsql).tokens_eq]
      exact hselect.nests
    refine ⟨_, hnests.parens, List.forall_mem_singleton.mpr rfl, ?_⟩
    rw [List.flatMap_singleton, statements_parens]
    exact List.forall_mem_cons.mpr
      ⟨hdialect ▸ Query.limitedIn_select hwords hselect.clauses_eq, hselect.inner⟩

end

end Discography
