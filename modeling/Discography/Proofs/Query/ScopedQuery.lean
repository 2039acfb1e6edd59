import Discography.Proofs.Query.JoinedRecord
import Discography.Proofs.Query.Scoping

/-!
# Statements of queries with columns in scope

If the columns of a query are in scope, each where it stands, then the statements of the query are
well scoped: the tables of the query are introduced one after the other, and a clause mentions the
columns that it was given and no others.

## Main definitions

* `Query.JoinsInScope`: the columns of join conditions are in scope
* `Query.Scoped`: all columns of a query are

## Main results

* `Query.Scoped.exists_wellScoped_selectTokens`: the statement for the rows of a query
* `Query.Scoped.exists_wellScoped_countTokens`: the statement that counts them
-/

namespace Discography

open Token Nested

variable {declared : Table → Prop} {scope front : List Source}

/-! ### Terms of an order -/

/-- The column of a term of an order, if it is one. -/
def OrderTerm.columns (t : OrderTerm) : List Column :=
  match t.key with
  | .column c => [c]
  | .key _ => []

theorem OrderTerm.mem_columns {t : OrderTerm} {c : Column} :
    c ∈ t.columns ↔ t.key = .column c := by
  obtain ⟨_ | _, _⟩ := t <;> simp [columns, eq_comm]

theorem OrderTerm.isFragment_tokens (t : OrderTerm) :
    IsFragment t.tokens (t.tokens.map .token) (t.columns.map Column.mention) := by
  obtain ⟨key, direction⟩ := t
  have hkey : IsFragment (OrderTerm.tokens ⟨key, none⟩)
      ((OrderTerm.tokens ⟨key, none⟩).map .token)
      ((OrderTerm.columns ⟨key, none⟩).map Column.mention) := by
    cases key with
    | column c => exact isFragment_column c.aliasName c.name
    | key n => exact isFragment_name n
  have hword : ∀ w, w ∉ clauseWords → IsFragment (OrderTerm.tokens ⟨key, none⟩ ++ [keyword w])
      ((OrderTerm.tokens ⟨key, none⟩ ++ [keyword w]).map .token)
      ((OrderTerm.columns ⟨key, none⟩).map Column.mention) := by
    intro w hw
    have happend := hkey.append (isFragment_keyword hw)
    rw [List.append_nil] at happend
    rwa [List.map_append]
  rcases direction with _ | _ | _
  · exact hkey
  · exact hword "ASC" (by decide)
  · exact hword "DESC" (by decide)

namespace Query

variable {d : Dialect} {q : Query}

/-! ### Clauses of a query -/

/-- The columns in the condition of each join are in scope when the join is. -/
def JoinsInScope (tables : List Table) : List Join → Prop
  | [] => True
  | j :: joins =>
    (∀ p ∈ j.condition, ∀ c ∈ p.columns, c.InScope (tables ++ [j.table])) ∧
      JoinsInScope (tables ++ [j.table]) joins

/-- The tables of a query and its columns are such that its statements are well scoped. -/
structure Scoped (declared : Table → Prop) (q : Query) : Prop where
  invariant : q.Invariant
  tables : ∀ t ∈ q.tables, t.Scoped declared
  keys : ∀ p ∈ q.projection, p.DistinctKeys
  joins : JoinsInScope [q.primary] q.joins
  filter : ∀ p ∈ q.filter, ∀ c ∈ p.columns, c.InScope q.tables

theorem exists_isPart_filter (hd : d.PlainRows) {filter : Option Predicate}
    (h : ∀ p ∈ filter, ∀ c ∈ p.columns, c.mention.Resolves scope) :
    ∃ ts cs, IsPart declared scope front (filterTokens d filter) [] ts cs := by
  cases filter with
  | none => exact ⟨_, _, isPart_nil⟩
  | some p =>
    obtain ⟨ts, hts⟩ := p.exists_isFragment hd
    exact ⟨_, _, isPart_fragment (by decide) (by decide) hts
      (List.forall_mem_map.mpr (h p rfl))⟩

theorem exists_isPart_join (hd : d.PlainRows) {j : Join} (hj : j.table.Scoped declared)
    (hresolves : ∀ p ∈ j.condition, ∀ c ∈ p.columns, c.mention.Resolves scope)
    (hearlier : ∀ p ∈ j.condition, ∀ c ∈ p.columns,
      c.aliasName ∈ (front ++ [j.table.source]).map (·.aliasName)) :
    ∃ ts cs, IsPart declared scope front (j.tokens d) [j.table.source] ts cs := by
  obtain ⟨word, hkeywords, hword, hother⟩ : ∃ word, j.kind.keywords = [word, "JOIN"] ∧
      word ∈ clauseWords ∧ word ∉ ["FROM", "JOIN", "ON"] := by
    cases j.kind with
    | inner => exact ⟨"INNER", by decide⟩
    | left => exact ⟨"LEFT", by decide⟩
    | right => exact ⟨"RIGHT", by decide⟩
  obtain ⟨condition, hcondition⟩ : ∃ ts, IsFragment
      (j.condition.elim [.boolean true] (Predicate.tokens d)) ts
      ((j.condition.elim [] Predicate.columns).map Column.mention) := by
    cases j.condition with
    | none => exact (Value.boolean true).exists_isFragment
    | some p => exact p.exists_isFragment hd
  have hcolumns : ∀ c ∈ j.condition.elim [] Predicate.columns,
      ∃ p ∈ j.condition, c ∈ p.columns := by
    cases j.condition with
    | none => exact nofun
    | some p => exact fun c hc => ⟨p, rfl, hc⟩
  -- three clauses: the kind of the join, its table, and its condition
  have hkind : IsPart declared scope front [keyword word] [] _ _ :=
    isPart_fragment hword hother isFragment_nil (List.forall_mem_nil _)
  obtain ⟨ts, cs, htable⟩ : ∃ ts cs, IsPart declared scope (front ++ [])
      (keyword "JOIN" :: j.table.sourceTokens) [j.table.source] ts cs :=
    hj.exists_isPart (.inr rfl)
  have hon : IsPart declared scope (front ++ ([] ++ [j.table.source])) (keyword "ON" :: _) _ _ _ :=
    isPart_of_isFragment (by decide) (by decide) hcondition.parens
      (List.forall_mem_map.mpr fun c hc => by
        obtain ⟨p, hp, hc⟩ := hcolumns c hc
        exact hresolves p hp c hc)
      (fun _ => List.forall_mem_map.mpr fun c hc => by
        obtain ⟨p, hp, hc⟩ := hcolumns c hc
        exact hearlier p hp c hc)
  have htokens : j.tokens d = [keyword word] ++ keyword "JOIN" :: j.table.sourceTokens ++
      keyword "ON" :: parens (j.condition.elim [.boolean true] (Predicate.tokens d)) := by
    rw [Join.tokens, hkeywords]
    simp [keywords]
  rw [htokens]
  exact ⟨_, _, (hkind.append htable).append hon⟩

/-- All joins, behind the tables so far. -/
theorem exists_isPart_joins (hd : d.PlainRows) : ∀ {joins : List Join} {tables : List Table},
    (∀ j ∈ joins, j.table.Scoped declared) → JoinsInScope tables joins →
    (∀ c : Column, c.InScope (tables ++ joins.map (·.table)) → c.mention.Resolves scope) →
    ∃ ts cs, IsPart declared scope (tables.map Table.source) (joins.flatMap (Join.tokens d))
      (joins.map fun j => j.table.source) ts cs
  | [], _, _, _, _ => ⟨_, _, isPart_nil⟩
  | j :: joins, tables, hscoped, ⟨hcondition, hjoins⟩, hresolves => by
    obtain ⟨hj, hscoped⟩ := List.forall_mem_cons.mp hscoped
    rw [List.map_cons, List.append_cons] at hresolves
    obtain ⟨ts, cs, hfirst⟩ : ∃ ts cs, IsPart declared scope (tables.map Table.source)
        (j.tokens d) [j.table.source] ts cs := by
      refine exists_isPart_join hd hj (fun p hp c hc => hresolves c ?_) fun p hp c hc => ?_
      · exact (hcondition p hp c hc).mono (List.subset_append_left _ _)
      · obtain ⟨t, ht, halias, -⟩ := hcondition p hp c hc
        rw [← List.map_singleton, ← List.map_append, List.map_map]
        exact List.mem_map.mpr ⟨t, ht, halias⟩
    -- the table of the first join is in front of the others
    obtain ⟨us, ds, hrest⟩ := exists_isPart_joins hd hscoped hjoins hresolves
    rw [List.map_append, List.map_singleton] at hrest
    exact ⟨_, _, hfirst.append hrest⟩

theorem Scoped.resolves (hq : q.Scoped declared) {c : Column} (hc : c.InScope q.tables) :
    c.mention.Resolves (q.tables.map Table.source) :=
  hc.resolves hq.invariant.nodup_aliases fun t ht => (hq.tables t ht).nodup

/-- The tables of a query with their joins, and its filter. -/
theorem Scoped.exists_isPart_source (hq : q.Scoped declared) (hd : q.dialect.PlainRows) :
    ∃ ts cs, IsPart declared (q.tables.map Table.source) [] q.sourceTokens
      (q.tables.map Table.source) ts cs := by
  have hprimary := hq.tables q.primary List.mem_cons_self
  obtain ⟨ts, cs, hfrom⟩ : ∃ ts cs, IsPart declared (q.tables.map Table.source) []
      (keyword "FROM" :: q.primary.sourceTokens) [q.primary.source] ts cs :=
    hprimary.exists_isPart (.inl rfl)
  have hscoped : ∀ j ∈ q.joins, j.table.Scoped declared := fun j hj =>
    hq.tables j.table (List.mem_cons_of_mem _ (List.mem_map_of_mem hj))
  obtain ⟨us, ds, hjoins⟩ := exists_isPart_joins hd hscoped hq.joins fun _ => hq.resolves
  obtain ⟨vs, es, hfilter⟩ : ∃ vs es, IsPart declared (q.tables.map Table.source)
      (q.tables.map Table.source) (filterTokens q.dialect q.filter) [] vs es :=
    exists_isPart_filter hd fun p hp c hc => hq.resolves (hq.filter p hp c hc)
  have htables : q.tables.map Table.source =
      [q.primary.source] ++ q.joins.map fun j => j.table.source := by
    simp [Query.tables, Function.comp_def]
  have happend := (hfrom.append hjoins).append (by rwa [htables] at hfilter ⊢)
  rw [List.append_nil, ← htables] at happend
  exact ⟨_, _, happend⟩

theorem exists_isPart_order (horder : ∀ t ∈ q.order, ∀ c ∈ t.columns, c.mention.Resolves scope) :
    ∃ ts cs, IsPart declared scope front q.orderTokens [] ts cs := by
  rw [orderTokens]
  split
  · exact ⟨_, _, isPart_nil⟩
  · obtain ⟨ts, hts⟩ := exists_isFragment_commas fun t (_ : t ∈ q.order) =>
      ⟨_, t.isFragment_tokens⟩
    have hresolved : ∀ m ∈ q.order.flatMap fun t => t.columns.map Column.mention,
        m.Resolves scope := by
      intro m hm
      obtain ⟨t, ht, hm⟩ := List.mem_flatMap.mp hm
      obtain ⟨c, hc, rfl⟩ := List.mem_map.mp hm
      exact horder t ht c hc
    have hword : IsPart declared scope front [keyword "ORDER"] [] _ _ :=
      isPart_fragment (by decide) (by decide) isFragment_nil (List.forall_mem_nil _)
    have hterms : IsPart declared scope (front ++ []) (keyword "BY" :: _) [] _ _ :=
      isPart_fragment (by decide) (by decide) hts hresolved
    exact ⟨_, _, hword.append hterms⟩

theorem exists_isPart_limit (q : Query) :
    ∃ ts cs, IsPart declared scope front q.limitTokens [] ts cs := by
  have hnumber : ∀ (word : String) (n : Option Int), word = "LIMIT" ∨ word = "OFFSET" →
      ∀ front, ∃ ts cs, IsPart declared scope front
        (n.elim [] fun n => [keyword word, .integer n]) [] ts cs := by
    intro word n hword front
    cases n with
    | none => exact ⟨_, _, isPart_nil⟩
    | some n =>
      have hinteger : IsFragment [.integer n] _ [] :=
        isFragment_token (by simp [IsInner]) rfl (by simp)
      refine ⟨_, _, isPart_fragment ?_ ?_ hinteger (List.forall_mem_nil _)⟩
      · rcases hword with rfl | rfl <;> decide
      · rcases hword with rfl | rfl <;> decide
  obtain ⟨ts, cs, hlimit⟩ := hnumber "LIMIT" q.writtenLimit (.inl rfl) front
  obtain ⟨us, ds, hoffset⟩ := hnumber "OFFSET" (q.offset.map fun n => n.toNat) (.inr rfl)
    (front ++ [])
  rw [Option.elim_map] at hoffset
  exact ⟨_, _, hlimit.append hoffset⟩

/-! ### The columns of a query -/

theorem isFragment_leafTokens (leaf : List String × Column) :
    IsFragment (leafTokens leaf) ((leafTokens leaf).map .token) [leaf.2.mention] := by
  obtain ⟨path, c⟩ := leaf
  have hcolumn : IsFragment c.tokens _ [c.mention] := isFragment_column c.aliasName c.name
  rw [leafTokens]
  cases path.getLast? with
  | none => exact hcolumn
  | some key =>
    rw [Option.elim_some, List.map_append]
    exact hcolumn.append ((isFragment_keyword (w := "AS") (by decide)).append (isFragment_name key))

theorem outputName?_leafTokens (leaf : List String × Column) :
    outputName? ((leafTokens leaf).map .token) = leaf.1.getLast? := by
  obtain ⟨path, c⟩ := leaf
  rw [leafTokens]
  cases path.getLast? with
  | none => rfl
  | some key => rfl

theorem isToken_comma_of_mem_leafTokens {leaf : List String × Column} :
    ∀ t ∈ (leafTokens leaf).map Nested.token, t.isToken (punctuation ",") = false := by
  obtain ⟨path, c⟩ := leaf
  rw [leafTokens]
  cases path.getLast? <;> simp [Column.tokens, Token.path, isToken]

/-- The names that a statement gives to its columns are the last keys of the columns. -/
theorem outputs_of_clauses {ts : List Nested} {leaves : List (List String × Column)}
    {cs : List Clause}
    (h : clauses ts = ⟨"SELECT", Nested.commas (leaves.map fun leaf =>
      (leafTokens leaf).map .token)⟩ :: cs) :
    outputs ts = leaves.filterMap fun leaf => leaf.1.getLast? := by
  have hcomma : ∀ ts ∈ leaves.map fun leaf => (leafTokens leaf).map Nested.token,
      ∀ t ∈ ts, t.isToken (punctuation ",") = false :=
    List.forall_mem_map.mpr fun _ _ => isToken_comma_of_mem_leafTokens
  rw [outputs, h, List.head?_cons, Option.elim_some]
  cases leaves with
  | nil => rfl
  | cons leaf leaves =>
    rw [List.map_cons, splitCommas_map_commas _ _ _ hcomma, List.filterMap_map]
    simp [Function.comp_def, outputName?_leafTokens, List.filterMap_cons, List.filterMap_map]

/-! ### Statements of a query -/

/-- What stands behind the `SELECT` list. -/
theorem Scoped.exists_isPart_behind (hq : q.Scoped declared) (hd : q.dialect.PlainRows) :
    ∃ ts cs, IsPart declared (q.tables.map Table.source) []
      (q.sourceTokens ++ q.orderTokens ++ q.limitTokens) (q.tables.map Table.source) ts cs := by
  obtain ⟨ts, cs, hsource⟩ := hq.exists_isPart_source hd
  obtain ⟨us, ds, horder⟩ : ∃ us ds, IsPart declared (q.tables.map Table.source)
      ([] ++ q.tables.map Table.source) q.orderTokens [] us ds := by
    refine exists_isPart_order fun t ht c hc => hq.resolves ?_
    exact hq.invariant.order_inScope t ht c (OrderTerm.mem_columns.mp hc)
  obtain ⟨vs, es, hlimit⟩ := @exists_isPart_limit declared (q.tables.map Table.source)
    ([] ++ (q.tables.map Table.source ++ [])) q
  have happend := (hsource.append horder).append hlimit
  rw [List.append_nil, List.append_nil] at happend
  exact ⟨_, _, happend⟩

/-- Every column of a query is in scope, whether the projection was given or not. -/
theorem Invariant.leaves_inScope (hq : q.Invariant) :
    ∀ leaf ∈ q.effectiveProjection.leaves, leaf.2.InScope q.tables := by
  have hcolumn : ∀ t ∈ q.tables, ∀ c ∈ t.columns, c.InScope q.tables := by
    intro t ht c hc
    obtain ⟨a, ha, rfl⟩ := List.mem_map.mp hc
    exact ⟨t, ht, rfl, a, ha, rfl⟩
  rw [effectiveProjection]
  split
  · rename_i p hp
    exact hq.projection_inScope p hp
  · split
    · rw [Projection.leaves_table]
      exact List.forall_mem_map.mpr (hcolumn q.primary List.mem_cons_self)
    · rw [Projection.leaves_tables]
      refine List.forall_mem_flatMap.mpr fun t ht => ?_
      exact List.forall_mem_map.mpr (hcolumn t ht)

/-- The statement for the rows of a query is well scoped, and names its columns by their keys. -/
theorem Scoped.exists_wellScoped_selectTokens (hq : q.Scoped declared)
    (hd : q.dialect.PlainRows) :
    ∃ ts, Nests q.selectTokens ts ∧ isStatement ts ∧
      WellScoped declared (q.tables.map Table.source) ts ∧ InnerWellScoped declared ts ∧
      outputs ts = q.effectiveProjection.leaves.filterMap fun leaf => leaf.1.getLast? := by
  obtain ⟨us, ds, hbehind⟩ := hq.exists_isPart_behind hd
  have hleaves : IsFragment (commas (q.effectiveProjection.leaves.map leafTokens)) _ _ :=
    isFragment_commas (List.forall₂_map_right_iff.mpr
      (List.forall₂_same.mpr fun leaf _ => isFragment_leafTokens leaf))
  have hresolved : ∀ m ∈ q.effectiveProjection.leaves.flatMap fun leaf => [leaf.2.mention],
      m.Resolves (q.tables.map Table.source) := by
    intro m hm
    obtain ⟨leaf, hleaf, hm⟩ := List.mem_flatMap.mp hm
    obtain rfl := List.mem_singleton.mp hm
    exact hq.resolves (hq.invariant.leaves_inScope leaf hleaf)
  have hselect : IsPart declared (q.tables.map Table.source) [] (keyword "SELECT" :: _) [] _ _ :=
    isPart_fragment (by decide) (by decide) hleaves hresolved
  have hstatement := hselect.append hbehind
  -- the names of the columns are read off the first clause
  have hclauses : clauses _ = _ :: ds := hstatement.clauses_eq
  refine ⟨_, ?_, rfl, hstatement.wellScoped, hstatement.inner, outputs_of_clauses hclauses⟩
  simpa [selectTokens] using hstatement.nests

/-- So is the statement that counts the rows. -/
theorem Scoped.exists_wellScoped_countTokens (hq : q.Scoped declared) (hd : q.dialect.PlainRows) :
    ∃ ts, Nests q.countTokens ts ∧ isStatement ts ∧
      WellScoped declared (q.tables.map Table.source) ts ∧ InnerWellScoped declared ts := by
  obtain ⟨us, ds, hsource⟩ := hq.exists_isPart_source hd
  have hcount : IsFragment (keyword "COUNT" :: parens [punctuation "*"]) _ _ :=
    (isFragment_keyword (w := "COUNT") (by decide)).append
      (isFragment_token (t := punctuation "*") (by decide) rfl (by decide)).parens
  have hselect : IsPart declared (q.tables.map Table.source) [] (keyword "SELECT" :: _) [] _ _ :=
    isPart_fragment (by decide) (by decide) hcount (List.forall_mem_nil _)
  have hstatement := hselect.append hsource
  refine ⟨_, ?_, rfl, hstatement.wellScoped, hstatement.inner⟩
  simpa [countTokens] using hstatement.nests

end Query

end Discography
