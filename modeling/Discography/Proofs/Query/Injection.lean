import Discography.Proofs.Query.ChangeOutline
import Discography.Proofs.Query.StepOutline

/-!
# No injection

Names and literals stand in the text of a statement, and none of them leaves its token. The database
reads every statement of a reachable query, and of every change that the query makes, as the tokens
that their structure prescribes. Hence other literals of the same kinds, and other names that tell
apart what the former ones did, leave all keywords, all punctuation and the kinds of all tokens
where they are.

## Main definitions

* `Query.ReadAsPrescribed`: all statements of a query are read as the tokens that it prescribes
* `Query.Alike`, `Table.Alike`, `Query.Step.Alike`: equal up to a renaming and up to the literals
* `Lexer.skeleton`: keywords, punctuation, and the kinds of the other tokens of a text
* `Query.SameSkeletons`: all statements of two queries have equal skeletons

## Main results

* `Query.reachable_readAsPrescribed_sameSkeletons`: all of this for both dialects
-/

namespace Discography

variable {g : String → String} {d : Dialect}

/-! ### Statements are read as prescribed -/

namespace Query

/-- Every statement that a query writes is read as the tokens that the query prescribes. -/
structure ReadAsPrescribed (q : Query) : Prop where
  render {r : Rendered} (h : q.render = .ok r) :
    Lexer.lex q.dialect.style r.sql.text = some q.selectTokens
  renderCount {sql : Sql} (h : q.renderCount = .ok sql) :
    Lexer.lex q.dialect.style sql.text = some q.countTokens
  /-- As a table of another query, the query keeps its tokens, between parentheses. -/
  asTable {aliasName : String} {t : Table} (h : q.asTable aliasName = .ok t) :
    t.sourceTokens = Token.parens q.selectTokens ++ [.keyword "AS", .name aliasName]
  insertMany {rows : List Assignments} {s : Statement} (h : q.insertMany rows = .ok s) :
    s.texts.map (Lexer.lex q.dialect.style) =
      (q.insertCommands rows).map fun command => some (command.tokens q.dialect)
  update {assignments : Assignments} {s : Statement} (h : q.update assignments = .ok s) :
    s.texts.map (Lexer.lex q.dialect.style) =
      [some ((Command.update q.primary assignments q.filter).tokens q.dialect)]
  delete {s : Statement} (h : q.delete = .ok s) :
    s.texts.map (Lexer.lex q.dialect.style) =
      [some ((Command.delete q.primary q.filter).tokens q.dialect)]
  truncate {s : Statement} (h : q.truncate = .ok s) :
    s.texts.map (Lexer.lex q.dialect.style) =
      [some ((Command.truncate q.primary.origin).tokens q.dialect)]

variable {q : Query}

/-- What is written for the commands of a change of a query is read as their tokens. -/
theorem Sound.writes_ofCommands (hq : q.Sound) {commands : List Command} {s : Statement}
    (ho : ∀ command ∈ commands, command.origin = q.primary.origin)
    (h : Statement.ofCommands q.dialect commands = .ok s) :
    List.Forall₂ (fun command sql => Sql.Writes q.dialect.style sql (command.tokens q.dialect))
      commands s.batch :=
  Statement.writes_ofCommands hq.lexical
    (fun command hc => ho command hc ▸ hq.origins q.primary (by simp [tables])) h

theorem Sound.readAsPrescribed (hq : q.Sound) : q.ReadAsPrescribed where
  render h := (writes_selectSql hq (render_eq_ok.1 h).2.1).lex_text
  renderCount h := (writes_countSql hq (renderCount_eq_ok.1 h).2).lex_text
  asTable h := by
    obtain ⟨-, _, -, sql, hsql, rfl⟩ := asTable_eq_ok.1 h
    rw [Table.sourceTokens, Origin.tokens, (writes_selectSql hq hsql).tokens_eq]
  insertMany h := by
    -- the checks in front say nothing about the text: only the commands are written
    obtain ⟨-, -, -, -, h⟩ := insertMany_eq_ok.1 h
    exact Statement.map_lex_texts
      (hq.writes_ofCommands (fun _ hc => origin_of_mem_insertCommands hc) h)
  update h := by
    obtain ⟨-, -, h⟩ := update_eq_ok.1 h
    exact Statement.map_lex_texts (hq.writes_ofCommands (by simp [Command.origin]) h)
  delete h := by
    obtain ⟨-, h⟩ := delete_eq_ok.1 h
    exact Statement.map_lex_texts (hq.writes_ofCommands (by simp [Command.origin]) h)
  truncate h := by
    obtain ⟨-, -, h⟩ := truncate_eq_ok.1 h
    exact Statement.map_lex_texts (hq.writes_ofCommands (by simp [Command.origin]) h)

end Query

/-! ### Statements keep their skeletons -/

/-- The keywords, the punctuation and the kinds of the other tokens of a text. -/
def Lexer.skeleton (style : TextStyle) (text : String) : Option (List Token) :=
  (lex style text).map (List.map Token.blank)

/-- The tables are equal up to a renaming and up to literals of the same kind. -/
def Table.Alike (g : String → String) (t t' : Table) : Prop := t.outline g = t'.outline id

/-- The queries are equal up to a renaming and up to literals of the same kind. -/
def Query.Alike (g : String → String) (q q' : Query) : Prop := q.outline g = q'.outline id

/-- The operations are equal up to a renaming and up to literals of the same kind. -/
def Query.Step.Alike (g : String → String) (s s' : Step) : Prop := s.outline g = s'.outline id

/-- The assignments are equal up to a renaming and up to literals of the same kind. -/
def Assignments.Alike (hg : g.Injective) (a a' : Assignments) : Prop :=
  a.outline hg = a'.outline Function.injective_id

theorem Sql.Writes.skeleton_text {style : TextStyle} {sql : Sql} {tokens : List Token}
    (h : Sql.Writes style sql tokens) :
    Lexer.skeleton style sql.text = some ((Sql.outline g sql).tokens.map Token.blank) := by
  rw [Lexer.skeleton, h.lex_text, Sql.blank_tokens_outline, h.tokens_eq]
  rfl

/-- The skeletons of the texts of a change are those of their outlines. -/
theorem Statement.map_skeleton_texts (g : String → String) {commands : List Command} {s : Statement}
    (h : List.Forall₂ (fun command sql => Sql.Writes d.style sql (command.tokens d)) commands
      s.batch) :
    s.texts.map (Lexer.skeleton d.style) =
      (s.outline g).batch.map fun sql => some (sql.tokens.map Token.blank) := by
  rw [texts, outline, List.map_map, List.map_map]
  generalize s.batch = batch at h
  induction h with
  | nil => rfl
  | cons hwrites hrest ih =>
    rw [List.map_cons, List.map_cons, ih]
    exact congrArg (· :: _) hwrites.skeleton_text

namespace Query

/-- Whatever the first query writes, the second one writes with the same skeleton. -/
structure SameSkeletons (hg : g.Injective) (q q' : Query) : Prop where
  render {r : Rendered} (h : q.render = .ok r) : ∃ r', q'.render = .ok r' ∧
    Lexer.skeleton q'.dialect.style r'.sql.text = Lexer.skeleton q.dialect.style r.sql.text
  renderCount {sql : Sql} (h : q.renderCount = .ok sql) : ∃ sql', q'.renderCount = .ok sql' ∧
    Lexer.skeleton q'.dialect.style sql'.text = Lexer.skeleton q.dialect.style sql.text
  insertMany {rows rows' : List Assignments} {s : Statement}
    (hrows : List.Forall₂ (Assignments.Alike hg) rows rows') (h : q.insertMany rows = .ok s) :
    ∃ s', q'.insertMany rows' = .ok s' ∧
      s'.texts.map (Lexer.skeleton q'.dialect.style) =
        s.texts.map (Lexer.skeleton q.dialect.style)
  update {assignments assignments' : Assignments} {s : Statement}
    (ha : assignments.Alike hg assignments') (h : q.update assignments = .ok s) :
    ∃ s', q'.update assignments' = .ok s' ∧
      s'.texts.map (Lexer.skeleton q'.dialect.style) =
        s.texts.map (Lexer.skeleton q.dialect.style)
  delete {s : Statement} (h : q.delete = .ok s) : ∃ s', q'.delete = .ok s' ∧
    s'.texts.map (Lexer.skeleton q'.dialect.style) = s.texts.map (Lexer.skeleton q.dialect.style)
  truncate {s : Statement} (h : q.truncate = .ok s) : ∃ s', q'.truncate = .ok s' ∧
    s'.texts.map (Lexer.skeleton q'.dialect.style) = s.texts.map (Lexer.skeleton q.dialect.style)

variable {q q' : Query}

theorem Alike.dialect_eq (h : q.Alike g q') : q'.dialect = q.dialect :=
  (congrArg dialect h).symm

theorem Alike.stage_eq (h : q.Alike g q') : q'.stage = q.stage :=
  (congrArg stage h).symm

theorem exists_ok_of_map_eq {α : Type} {x y : Except NoLiteral α} {f f' : α → α} {a : α}
    (h : f <$> x = f' <$> y) (hx : x = .ok a) : ∃ b, y = .ok b ∧ f a = f' b := by
  subst hx
  cases y with
  | error e => cases h
  | ok b => exact ⟨b, rfl, Except.ok.inj h⟩

/-- Equal outlines of statements have equal skeletons. -/
theorem skeleton_text_eq {style : TextStyle} {sql sql' : Sql} {tokens tokens' : List Token}
    (h : Sql.Writes style sql tokens) (h' : Sql.Writes style sql' tokens')
    (hout : Sql.outline g sql = Sql.outline id sql') :
    Lexer.skeleton style sql'.text = Lexer.skeleton style sql.text := by
  rw [h.skeleton_text (g := g), h'.skeleton_text (g := id), hout]

/-- So have equal outlines of all statements of a change. -/
theorem map_skeleton_texts_eq (hq : q.Sound) (hq' : q'.Sound)
    {commands commands' : List Command} {s s' : Statement}
    (ho : ∀ command ∈ commands, command.origin = q.primary.origin)
    (ho' : ∀ command ∈ commands', command.origin = q'.primary.origin)
    (hs : Statement.ofCommands q.dialect commands = .ok s)
    (hs' : Statement.ofCommands q'.dialect commands' = .ok s')
    (hout : s'.outline id = s.outline g) :
    s'.texts.map (Lexer.skeleton q'.dialect.style) =
      s.texts.map (Lexer.skeleton q.dialect.style) := by
  rw [Statement.map_skeleton_texts g (hq.writes_ofCommands ho hs),
    Statement.map_skeleton_texts id (hq'.writes_ofCommands ho' hs'), hout]

theorem Alike.sameSkeletons (hg : g.Injective) (hq : q.Sound) (hq' : q'.Sound)
    (h : q.Alike g q') : q.SameSkeletons hg q' := by
  -- both queries are compared with their common outline, the second one with names as they are
  have hid : Function.Injective (id : String → String) := Function.injective_id
  have hd := hq.lexical
  have hd' := hq'.lexical
  constructor
  · intro r hr
    obtain ⟨hstage, hsql, -⟩ := render_eq_ok.1 hr
    have hselect : Sql.outline g <$> q.selectSql = Sql.outline id <$> q'.selectSql := by
      rw [← selectSql_outline g hd, ← selectSql_outline id hd', h]
    obtain ⟨sql', hsql', hout⟩ := exists_ok_of_map_eq hselect hsql
    refine ⟨⟨sql', q'.mapper⟩, render_eq_ok.2 ⟨h.stage_eq ▸ hstage, hsql', rfl⟩, ?_⟩
    rw [h.dialect_eq]
    exact skeleton_text_eq (writes_selectSql hq hsql) (h.dialect_eq ▸ writes_selectSql hq' hsql')
      hout
  · intro sql hr
    obtain ⟨hstage, hsql⟩ := renderCount_eq_ok.1 hr
    have hcount : Sql.outline g <$> q.countSql = Sql.outline id <$> q'.countSql := by
      rw [← countSql_outline g hd, ← countSql_outline id hd', h]
    obtain ⟨sql', hsql', hout⟩ := exists_ok_of_map_eq hcount hsql
    refine ⟨sql', renderCount_eq_ok.2 ⟨h.stage_eq ▸ hstage, hsql'⟩, ?_⟩
    rw [h.dialect_eq]
    exact skeleton_text_eq (writes_countSql hq hsql) (h.dialect_eq ▸ writes_countSql hq' hsql') hout
  -- a change is accepted if its outline is, so it goes from one query to the other by that
  · intro rows rows' s hrows hs
    have hmap : rows.map (Assignments.outline hg) = rows'.map (Assignments.outline hid) := by
      clear hs
      induction hrows with
      | nil => rfl
      | cons hrow hrest ih => rw [List.map_cons, List.map_cons, hrow, ih]
    have houtline := (insertMany_outline hg hd).2 ⟨s, hs, rfl⟩
    rw [h, hmap] at houtline
    obtain ⟨s', hs', hout⟩ := (insertMany_outline hid hd').1 houtline
    obtain ⟨-, -, -, -, hs⟩ := insertMany_eq_ok.1 hs
    obtain ⟨-, -, -, -, hs''⟩ := insertMany_eq_ok.1 hs'
    exact ⟨s', hs', map_skeleton_texts_eq hq hq' (fun _ => origin_of_mem_insertCommands)
      (fun _ => origin_of_mem_insertCommands) hs hs'' hout⟩
  · intro assignments assignments' s ha hs
    have houtline := (update_outline hg hd).2 ⟨s, hs, rfl⟩
    rw [h, ha] at houtline
    obtain ⟨s', hs', hout⟩ := (update_outline hid hd').1 houtline
    obtain ⟨-, -, hs⟩ := update_eq_ok.1 hs
    obtain ⟨-, -, hs''⟩ := update_eq_ok.1 hs'
    exact ⟨s', hs', map_skeleton_texts_eq hq hq' (by simp [Command.origin])
      (by simp [Command.origin]) hs hs'' hout⟩
  · intro s hs
    have houtline := (delete_outline hg hd).2 ⟨s, hs, rfl⟩
    rw [h] at houtline
    obtain ⟨s', hs', hout⟩ := (delete_outline hid hd').1 houtline
    obtain ⟨-, hs⟩ := delete_eq_ok.1 hs
    obtain ⟨-, hs''⟩ := delete_eq_ok.1 hs'
    exact ⟨s', hs', map_skeleton_texts_eq hq hq' (by simp [Command.origin])
      (by simp [Command.origin]) hs hs'' hout⟩
  · intro s hs
    have houtline := (truncate_outline hg hd).2 ⟨s, hs, rfl⟩
    rw [h] at houtline
    obtain ⟨s', hs', hout⟩ := (truncate_outline hid hd').1 houtline
    obtain ⟨-, -, hs⟩ := truncate_eq_ok.1 hs
    obtain ⟨-, -, hs''⟩ := truncate_eq_ok.1 hs'
    exact ⟨s', hs', map_skeleton_texts_eq hq hq' (by simp [Command.origin])
      (by simp [Command.origin]) hs hs'' hout⟩

/-! ### Queries that are built alike -/

theorem Alike.ofTable {t t' : Table} (h : t.Alike g t') :
    (Query.ofTable d t).Alike g (Query.ofTable d t') := by
  have houtline : ∀ (f : String → String) (t : Table),
      (Query.ofTable d t).outline f = Query.ofTable d (t.outline f) := fun _ _ => rfl
  rw [Alike, houtline, houtline, h]

/-- Operations that are alike are accepted alike. -/
theorem Alike.run (hg : g.Injective) {r : Query} {steps steps' : List Step} (h : q.Alike g q')
    (hsteps : List.Forall₂ (Step.Alike g) steps steps') (hr : q.run steps = .ok r) :
    ∃ r', q'.run steps' = .ok r' ∧ r.Alike g r' := by
  have hmap : steps.map (Step.outline g) = steps'.map (Step.outline id) := by
    clear hr
    induction hsteps with
    | nil => rfl
    | cons hs hrest ih => rw [List.map_cons, List.map_cons, hs, ih]
  -- the outlines of the operations are the same, and they decide what is accepted
  have hrun := (run_outline hg steps).2 ⟨r, hr, rfl⟩
  rw [h, hmap] at hrun
  obtain ⟨r', hr', hout⟩ := (run_outline Function.injective_id steps').1 hrun
  exact ⟨r', hr', hout.symm⟩

/-- Queries that are alike are alike as tables. -/
theorem Alike.asTable (hg : g.Injective) (hd : q.dialect.Lexical) (h : q.Alike g q')
    {aliasName : String} {t : Table} (ht : q.asTable aliasName = .ok t) :
    ∃ t', q'.asTable (g aliasName) = .ok t' ∧ t.Alike g t' := by
  have hd' : q'.dialect.Lexical := h.dialect_eq ▸ hd
  have htables : (q.asTable aliasName).toOption.map (Table.outline g) =
      (q'.asTable (g aliasName)).toOption.map (Table.outline id) := by
    rw [← asTable_outline hg hd, ← asTable_outline Function.injective_id hd', h, id]
  rw [ht] at htables
  cases ht' : q'.asTable (g aliasName) with
  | error e => simp [ht', Except.toOption] at htables
  | ok t' =>
    rw [ht'] at htables
    exact ⟨t', rfl, Option.some.inj htables⟩

/-- In both dialects, every statement of a reachable query, and of every change that it makes, is
read as the tokens that its structure prescribes. Under an injective renaming, and with other
literals of the same kinds, tables and operations are accepted as before, and every statement keeps
its skeleton. -/
theorem reachable_readAsPrescribed_sameSkeletons (hd : d = .sqlite ∨ d = .mysql) :
    (∀ q : Query, q.Reachable d → q.dialect = d ∧ q.ReadAsPrescribed) ∧
    ∀ (g : String → String) (hg : g.Injective),
      (∀ q q' : Query, q.Reachable d → q'.Reachable d → q.Alike g q' → q.SameSkeletons hg q') ∧
      (∀ t t' : Table, t.Alike g t' → (ofTable d t).Alike g (ofTable d t')) ∧
      (∀ (q q' r : Query) (steps steps' : List Step), q.Alike g q' →
        List.Forall₂ (Step.Alike g) steps steps' → q.run steps = .ok r →
          ∃ r', q'.run steps' = .ok r' ∧ r.Alike g r') ∧
      ∀ (q q' : Query) (aliasName : String) (t : Table), q.Reachable d → q.Alike g q' →
        q.asTable aliasName = .ok t → ∃ t', q'.asTable (g aliasName) = .ok t' ∧ t.Alike g t' := by
  have hlexical : d.Lexical := by
    rcases hd with rfl | rfl
    · exact Dialect.lexical_sqlite
    · exact Dialect.lexical_mysql
  refine ⟨fun q hq => ?_, fun g hg => ⟨fun q q' hq hq' h => ?_, fun t t' h => Alike.ofTable h,
    fun q q' r steps steps' h hsteps hr => h.run hg hsteps hr, fun q q' aliasName t hq h ht => ?_⟩⟩
  · obtain ⟨hdialect, hsound⟩ := hq.sound hlexical
    exact ⟨hdialect, hsound.readAsPrescribed⟩
  · exact h.sameSkeletons hg (hq.sound hlexical).2 (hq'.sound hlexical).2
  · exact h.asTable hg (hq.sound hlexical).2.lexical ht

/-- Names and texts full of quotation marks. -/
theorem reachable_readAsPrescribed_sameSkeletons_quotes :
    ∃ (q q' : Query) (r r' : Rendered), q.Reachable .mysql ∧ q'.Reachable .mysql ∧
      q.render = .ok r ∧ q'.render = .ok r' ∧
      Lexer.lex .backslash r'.sql.text = some [.keyword "SELECT", .name "t\x60'", .punctuation ".",
        .name "a\x60'", .keyword "AS", .name "a\x60'", .keyword "FROM", .name "t\x60'",
        .keyword "AS", .name "t\x60'", .keyword "WHERE", .name "t\x60'", .punctuation ".",
        .name "a\x60'", .punctuation "=", .text "\\' OR '' = '"] ∧
      Lexer.skeleton .backslash r'.sql.text = Lexer.skeleton .backslash r.sql.text := by
  let g : String → String := (· ++ "\x60'")
  have hg : g.Injective := fun a b h => by simpa [g] using h
  let t (f : String → String) : Table :=
    ⟨f "t", .path [f "t"], [{ name := f "a", type := .string }]⟩
  let restriction (f : String → String) (literal : String) : Condition :=
    .predicate (.compare (.column ⟨.path [f "t"], f "t", { name := f "a", type := .string }⟩) .eq
      (.literal (.text literal)))
  let q (f : String → String) (literal : String) : Query :=
    { ofTable .mysql (t f) with
      filter := some (.compare (.column ⟨.path [f "t"], f "t", { name := f "a", type := .string }⟩)
        .eq (.literal (.text literal)))
      stage := .whereFiltered }
  have hreachable : ∀ f literal, (q f literal).Reachable .mysql := fun f literal =>
    .apply (s := .restrict (restriction f literal)) (.ofTable (.ofPath (f "t") [f "t"] _))
      (by simp [Step.table?]) rfl
  obtain ⟨hread, hsame⟩ := reachable_readAsPrescribed_sameSkeletons (d := .mysql) (.inr rfl)
  have hskeleton := (hsame g hg).1 (q id "x") (q g "\\' OR '' = '") (hreachable id _)
    (hreachable g _) rfl
  have hrender : (q id "x").render = .ok ⟨_, _⟩ := rfl
  have hrender' : (q g "\\' OR '' = '").render = .ok ⟨_, _⟩ := rfl
  refine ⟨q id "x", q g "\\' OR '' = '", _, _, hreachable id _, hreachable g _, hrender, hrender',
    ?_, ?_⟩
  · exact ((hread _ (hreachable g _)).2.render hrender').trans rfl
  · obtain ⟨r', hr', h⟩ := hskeleton.render hrender
    obtain rfl := Except.ok.inj (hrender'.symm.trans hr')
    exact h

end Query

end Discography
