import Discography.Proofs.Query.Insertion
import Discography.Proofs.Query.Reachable
import Discography.Proofs.Query.ScopedSteps

/-!
# Every statement is well scoped

Queries are built from declared tables with distinct columns and from tables of other queries, to
any depth, under any aliases. As long as the columns that callers write into conditions are in scope
at the call, the statements that are written for the query are well scoped, and so are all
statements inside them.

## Main definitions

* `Query.Formed`, `Table.Formed`: queries and tables over declared tables
* `Sql.WellScoped`: what is written is a well-scoped statement with well-scoped statements inside it

## Main results

* `Query.Formed.scoped`, `Table.Formed.scoped`: all columns are in scope, at any depth
* `Query.wellScoped_of_formed`: all statements are well scoped
-/

namespace Discography

variable {declared : Table → Prop}

/-! ### Queries over declared tables -/

/-- The table is one of the database, and its columns are distinct. -/
structure Table.IsDeclaration (t : Table) : Prop where
  isPath : ∃ segments, t.origin = .path segments
  nodup : (t.attributes.map (·.name)).Nodup

mutual

/-- The queries over declared tables, whose conditions have columns in scope at the call. -/
inductive Query.Formed (d : Dialect) (declared : Table → Prop) : Query → Prop
  | ofTable {t : Table} : t.Formed d declared → (Query.ofTable d t).Formed d declared
  | apply {q r : Query} {s : Query.Step} :
    q.Formed d declared → (∀ t ∈ s.table?, t.Formed d declared) →
      (∀ c ∈ s.condition?, c.InScope q.tables) → q.apply s = .ok r → r.Formed d declared

/-- Declared tables, under any alias, and such queries as tables. -/
inductive Table.Formed (d : Dialect) (declared : Table → Prop) : Table → Prop
  | declared {t : Table} : declared t → t.Formed d declared
  | withAlias {t : Table} (aliasName : String) :
    t.Formed d declared → (t.withAlias aliasName).Formed d declared
  | asTable {q : Query} {t : Table} {aliasName : String} :
    q.Formed d declared → q.asTable aliasName = .ok t → t.Formed d declared

end

mutual

theorem Query.Formed.reachable {d : Dialect} (hdeclared : ∀ t, declared t → t.IsDeclaration) :
    ∀ {q : Query}, q.Formed d declared → q.Reachable d
  | _, .ofTable ht => .ofTable (ht.available hdeclared)
  | _, .apply hq htables _ h =>
    .apply (hq.reachable hdeclared) (fun t ht => (htables t ht).available hdeclared) h

theorem Table.Formed.available {d : Dialect} (hdeclared : ∀ t, declared t → t.IsDeclaration) :
    ∀ {t : Table}, t.Formed d declared → t.Available d
  | ⟨aliasName, origin, attributes⟩, .declared h => by
    obtain ⟨segments, rfl⟩ := (hdeclared _ h).isPath
    exact .ofPath aliasName segments attributes
  | _, .withAlias aliasName ht => .withAlias aliasName (ht.available hdeclared)
  | _, .asTable hq h => .asTable (hq.reachable hdeclared) h

end

/-- The columns in the conditions of operations are in scope, each among the tables so far. -/
def Query.ConditionsInScope : List Table → List Query.Step → Prop
  | _, [] => True
  | scope, s :: steps =>
    (∀ c ∈ s.condition?, c.InScope scope) ∧ ConditionsInScope (scope ++ s.table?.toList) steps

theorem Query.Formed.run {d : Dialect} {q r : Query} {steps : List Query.Step}
    (hq : q.Formed d declared) (htables : ∀ s ∈ steps, ∀ t ∈ s.table?, t.Formed d declared)
    (hsteps : Query.ConditionsInScope q.tables steps) (h : q.run steps = .ok r) :
    r.Formed d declared := by
  induction steps generalizing q with
  | nil =>
    obtain rfl := Except.ok.inj h
    exact hq
  | cons s steps ih =>
    obtain ⟨q', hs, hrest⟩ := Query.run_cons.mp h
    obtain ⟨htable, htables⟩ := List.forall_mem_cons.mp htables
    refine ih (.apply hq htable hsteps.1 hs) htables ?_ hrest
    rw [(Query.apply_frame hs).2]
    exact hsteps.2

theorem Table.scoped_of_declared (hdeclared : ∀ t, declared t → t.IsDeclaration) {t : Table}
    (ht : declared t) : t.Scoped declared := by
  obtain ⟨⟨segments, horigin⟩, hnodup⟩ := hdeclared t ht
  refine ⟨hnodup, (Token.path segments).map .token, ?_, ?_, .path ht horigin, ?_⟩
  · rw [horigin]
    exact Command.nests_path segments
  · refine List.forall_mem_map.mpr fun s hs => ?_
    rcases Command.mem_path hs with ⟨n, rfl⟩ | rfl <;> rfl
  · rw [Nested.InnerWellScoped, List.flatMap_map]
    simp

mutual

/-- All columns of a query over declared tables are in scope, at any depth. -/
theorem Query.Formed.scoped {d : Dialect} (hd : d.Lexical) (hrows : d.PlainRows)
    (hdeclared : ∀ t, declared t → t.IsDeclaration) :
    ∀ {q : Query}, q.Formed d declared → q.Scoped declared
  | _, .ofTable ht => Query.scoped_ofTable d (ht.scoped hd hrows hdeclared)
  | _, .apply hq htables hcondition h =>
    (hq.scoped hd hrows hdeclared).apply
      (fun t ht => (htables t ht).scoped hd hrows hdeclared) hcondition h

theorem Table.Formed.scoped {d : Dialect} (hd : d.Lexical) (hrows : d.PlainRows)
    (hdeclared : ∀ t, declared t → t.IsDeclaration) :
    ∀ {t : Table}, t.Formed d declared → t.Scoped declared
  | _, .declared h => Table.scoped_of_declared hdeclared h
  | _, .withAlias _ ht => by
    obtain ⟨hnodup, horigin⟩ := ht.scoped hd hrows hdeclared
    exact ⟨hnodup, horigin⟩
  | _, .asTable hq h => by
    obtain ⟨hdialect, hsound⟩ := (hq.reachable hdeclared).sound hd
    exact (hq.scoped hd hrows hdeclared).asTable hsound (hdialect ▸ hrows) h

end

/-! ### Texts -/

/-- What is written is a statement over the scope, and this statement and all statements inside it
are well scoped. -/
def Sql.WellScoped (style : TextStyle) (declared : Table → Prop) (scope : List Source) (sql : Sql) :
    Prop :=
  ∃ ts, (Lexer.lex style sql.text).bind Nested.ofTokens = some ts ∧ Nested.isStatement ts ∧
    Nested.WellScoped declared scope ts ∧ Nested.InnerWellScoped declared ts

/-- **Statements are well scoped.** For every query over declared tables, the statement that fetches
its rows and the one that counts them are over the tables of the query. There and in every statement
inside, a clause mentions columns of tables that are introduced once, each the only one of its name,
and the condition of a join mentions no table that is joined later. -/
theorem Query.wellScoped_of_formed {d : Dialect} (hd : d.Lexical) (hrows : d.PlainRows)
    (hdeclared : ∀ t, declared t → t.IsDeclaration) {q : Query} (hq : q.Formed d declared) :
    (∀ r, q.render = .ok r →
      r.sql.WellScoped d.style declared (q.tables.map Table.source)) ∧
    ∀ sql, q.renderCount = .ok sql →
      sql.WellScoped d.style declared (q.tables.map Table.source) := by
  obtain ⟨rfl, hsound⟩ := (hq.reachable hdeclared).sound hd
  have hscoped := hq.scoped hd hrows hdeclared
  constructor
  · intro r hr
    obtain ⟨-, hsql, -⟩ := render_eq_ok.mp hr
    obtain ⟨ts, hnests, hstatement, hwell, hinner, -⟩ :=
      hscoped.exists_wellScoped_selectTokens hrows
    refine ⟨ts, ?_, hstatement, hwell, hinner⟩
    rw [(writes_selectSql hsound hsql).lex_text, Option.bind_some, hnests.ofTokens_eq]
  · intro sql hr
    obtain ⟨-, hsql⟩ := renderCount_eq_ok.mp hr
    obtain ⟨ts, hnests, hstatement, hwell, hinner⟩ := hscoped.exists_wellScoped_countTokens hrows
    refine ⟨ts, ?_, hstatement, hwell, hinner⟩
    rw [(writes_countSql hsound hsql).lex_text, Option.bind_some, hnests.ofTokens_eq]

/-- A query with a filter, joined as a table under another alias. -/
theorem Query.wellScoped_of_formed_nested :
    let a := Query.oneColumn "a" "x"
    let b := Query.oneColumn "b" "y"
    let derived (aliasName : String) (sql : Sql) : Table :=
      ⟨aliasName, .subquery sql, [{ name := "x", type := .number }]⟩
    let x : Column := ⟨.path [], "r", { name := "x", type := .number }⟩
    let y : Column := ⟨.path ["b"], "b", { name := "y", type := .number }⟩
    ∃ inner sql q r,
      (Query.ofTable .sqlite a).run [.restrict (.pattern [.field "x" (.literal (.integer 1))])] =
        .ok inner ∧
      inner.asTable "s" = .ok (derived "s" sql) ∧
      (Query.ofTable .sqlite b).run [.join .left (derived "r" sql),
        .joinOn (.comparison (.column x) "=" (.column y)), .orderBy ⟨.column x, none⟩] = .ok q ∧
      q.render = .ok r ∧
      r.sql.WellScoped .doubled (· ∈ [a, b]) [⟨"b", ["y"]⟩, ⟨"r", ["x"]⟩] := by
  intro a b derived x y
  have hdeclared : ∀ t ∈ [a, b], t.IsDeclaration := by
    intro t ht
    rcases List.mem_pair.mp ht with rfl | rfl <;> exact ⟨⟨_, rfl⟩, by decide⟩
  -- the text of the inner query stays a variable
  obtain ⟨inner, sql, hinner, ht⟩ : ∃ inner sql,
      (Query.ofTable .sqlite a).run [.restrict (.pattern [.field "x" (.literal (.integer 1))])] =
        .ok inner ∧ inner.asTable "s" = .ok (derived "s" sql) := ⟨_, _, rfl, rfl⟩
  have hformed : inner.Formed .sqlite (· ∈ [a, b]) := by
    refine .run (.ofTable (.declared (by simp))) (by simp [Query.Step.table?]) ?_ hinner
    exact ⟨by rintro _ ⟨⟩; exact List.forall_mem_nil _, trivial⟩
  have hderived : (derived "r" sql).Formed .sqlite (· ∈ [a, b]) :=
    (Table.Formed.asTable hformed ht).withAlias "r"
  obtain ⟨q, r, hq, hr, hscope⟩ : ∃ q r,
      (Query.ofTable .sqlite b).run [.join .left (derived "r" sql),
        .joinOn (.comparison (.column x) "=" (.column y)), .orderBy ⟨.column x, none⟩] = .ok q ∧
      q.render = .ok r ∧ q.tables.map Table.source = [⟨"b", ["y"]⟩, ⟨"r", ["x"]⟩] :=
    ⟨_, _, rfl, rfl, rfl⟩
  have hx : x.InScope [b, derived "r" sql] := ⟨derived "r" sql, by simp, rfl, _, .head _, rfl⟩
  have hy : y.InScope [b, derived "r" sql] := ⟨b, by simp, rfl, _, .head _, rfl⟩
  have houter : q.Formed .sqlite (· ∈ [a, b]) := by
    refine .run (.ofTable (.declared (List.mem_cons_of_mem a (.head _)))) ?_ ?_ hq
    · exact List.forall_mem_cons.mpr ⟨by rintro _ ⟨⟩; exact hderived, by simp [Query.Step.table?]⟩
    · refine ⟨by rintro _ ⟨⟩, ?_, by rintro _ ⟨⟩, trivial⟩
      rintro _ ⟨⟩
      exact List.forall_mem_cons.mpr ⟨hx, List.forall_mem_singleton.mpr hy⟩
  refine ⟨inner, sql, q, r, hinner, ht, hq, hr, ?_⟩
  rw [← hscope]
  exact (Query.wellScoped_of_formed Dialect.lexical_sqlite (.inr rfl) hdeclared houter).1 r hr

end Discography
