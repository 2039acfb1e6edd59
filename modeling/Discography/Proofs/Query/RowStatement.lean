import Discography.Proofs.Filter.Meaning
import Discography.Proofs.Query.Insertion

/-!
# Statements about selected rows as a database reads them

What a database takes a statement for that counts, deletes or updates the rows of one table. Behind
the first `WHERE` outside parentheses stands a condition, and the statement is about the rows for
which it is true; without a `WHERE` it is about all rows. A condition knows the table by its alias,
or by the last part of its name where no alias is given.

## Main definitions

* `Treatment`, `RowStatement`: what is read
* `RowStatement.read`: the statement of a text
* `RowStatement.selected`: the rows that a statement is about
* `Query.formula`: the condition that a filter is read as

## Main results

* `Command.read_delete`, `Command.read_update`, `Query.read_count`: what is read
-/

namespace Discography

open Token

/-- What is done with rows. -/
inductive Treatment where
  | count
  | delete
  | update (assignments : List (String × Value))

/-- A statement about rows of one table, as it is read. -/
structure RowStatement where
  treatment : Treatment
  /-- The name of the table. -/
  target : List Token
  /-- The name by which the condition knows the table. -/
  scope : Option Token
  condition : Option Formula

namespace Nested

/-- Whether the tree is the keyword before a condition. -/
def isWhere (t : Nested) : Bool := t.isToken (keyword "WHERE")

/-- Whether the tree is the keyword before assignments. -/
def isSet (t : Nested) : Bool := t.isToken (keyword "SET")

/-- The assignment that trees are. -/
def assignment? : List Nested → Option (String × Value)
  | [.token (.name column), .token (.punctuation "="), v] => v.value?.map fun v => (column, v)
  | _ => none

/-- The assignments that trees are, with commas between them. -/
def assignments? (ts : List Nested) : Option (List (String × Value)) :=
  (splitCommas (ts.map fun t => (t, ()))).mapM fun group => assignment? (group.map Prod.fst)

end Nested

namespace RowStatement

/-- Reads a table: its name and the name by which a condition knows it. -/
def tableOf (ts : List Nested) : Option (List Token × Option Token) :=
  let path := Nested.flatten (ts.takeWhile Nested.isPathPart)
  match ts.dropWhile Nested.isPathPart with
  | [] => some (path, path.getLast?)
  | [.token (.keyword "AS"), .token (.name n)] => some (path, some (.name n))
  | _ => none

/-- Reads what stands in front of the condition: what is done, and the trees of the table. -/
def ofFront : List Nested → Option (Treatment × List Nested)
  | .token (.keyword "SELECT") :: .token (.keyword "COUNT") ::
      .parens [.token (.punctuation "*")] :: .token (.keyword "FROM") :: table =>
    some (.count, table)
  | .token (.keyword "DELETE") :: .token (.keyword "FROM") :: table => some (.delete, table)
  | .token (.keyword "UPDATE") :: ts =>
    (Nested.assignments? (ts.dropWhile (!·.isSet)).tail).map fun assignments =>
      (.update assignments, ts.takeWhile (!·.isSet))
  | _ => none

/-- Reads a condition behind its keyword, or nothing. -/
def conditionOf : List Nested → Option (Option Formula)
  | [] => some none
  | _ :: condition => (Formula.ofNested condition).map some

/-- Reads trees as a statement. -/
def ofNested (ts : List Nested) : Option RowStatement := do
  let (treatment, table) ← ofFront (ts.takeWhile (!·.isWhere))
  let (target, scope) ← tableOf table
  return ⟨treatment, target, scope, ← conditionOf (ts.dropWhile (!·.isWhere))⟩

/-- The statement of a text. -/
def read (d : Dialect) (text : String) : Option RowStatement :=
  ((Lexer.lex d.style text).bind Nested.ofTokens).bind ofNested

section selected

variable {ρ : Type}

/-- Whether a statement is about a row. What a comparison amounts to depends on the row, and on the
name by which the row is known. -/
def selects (v : Option Token → ρ → Comparison → Truth) (s : RowStatement) (row : ρ) : Bool :=
  s.condition.elim true fun f => f.eval (v s.scope row) = .holds

/-- The rows of a table that a statement is about, in order. -/
def selected (v : Option Token → ρ → Comparison → Truth) (s : RowStatement) (rows : List ρ) :
    List ρ :=
  rows.filter (s.selects v)

end selected

end RowStatement

/-! ### Conditions -/

namespace Query

/-- The condition that a filter is read as. -/
def formula (d : Dialect) (filter : Option Predicate) : Option Formula :=
  filter.bind fun p => Formula.ofTokens (p.tokens d)

variable {d : Dialect}

/-- Every filter is read as a condition. -/
theorem isSome_formula (hd : d.PlainRows) (filter : Option Predicate) :
    (formula d filter).isSome = filter.isSome := by
  cases filter with
  | none => rfl
  | some p =>
    obtain ⟨x, ts, hts, hmeans, -⟩ := p.exists_reads hd fun _ => .unknown
    obtain ⟨f, hf, -⟩ := Option.map_eq_some_iff.1 hmeans
    rw [formula, Option.bind_some, Formula.ofTokens, hts.ofTokens_eq, Option.bind_some, hf]
    rfl

/-- The trees of a filter begin with its keyword. -/
theorem exists_nests_filterTokens (hd : d.PlainRows) (filter : Option Predicate) :
    ∃ ts, Nests (filterTokens d filter) ts ∧ (∀ t ∈ ts.head?, t.isWhere) ∧
      RowStatement.conditionOf ts = some (formula d filter) := by
  cases filter with
  | none => exact ⟨[], nests_nil, by simp, rfl⟩
  | some p =>
    obtain ⟨x, ts, hts, hmeans, -⟩ := p.exists_reads hd fun _ => .unknown
    obtain ⟨f, hf, -⟩ := Option.map_eq_some_iff.1 hmeans
    refine ⟨.token (keyword "WHERE") :: ts, (nests_token (isInner_keyword _)).append hts, ?_, ?_⟩
    · rintro _ ⟨⟩
      rfl
    · rw [RowStatement.conditionOf, hf, formula, Option.bind_some, Formula.ofTokens,
        hts.ofTokens_eq, Option.bind_some, hf]
      rfl

end Query

/-! ### Tables -/

theorem Token.getLast?_path (segments : List String) :
    (path segments).getLast? = segments.getLast?.map .name := by
  induction segments with
  | nil => rfl
  | cons n segments ih =>
    cases segments with
    | nil => rfl
    | cons n' segments =>
      obtain ⟨t, ts, hpath⟩ : ∃ t ts, path (n' :: segments) = t :: ts := by
        cases segments <;> exact ⟨_, _, rfl⟩
      have hcons : path (n :: n' :: segments) = name n :: punctuation "." :: t :: ts := by
        rw [← hpath]
        rfl
      rw [hcons, List.getLast?_cons_cons, List.getLast?_cons_cons, ← hpath, ih,
        List.getLast?_cons_cons]

namespace RowStatement

/-- Trees that name a table stand for it, and no keyword of a clause is among them. -/
structure NamesTable (ts : List Nested) (segments : List String) (aliasName : String) : Prop where
  tableOf : tableOf ts = some (path segments, some (.name aliasName))
  notKeyword : ∀ t ∈ ts, t.isWhere = false ∧ t.isSet = false

theorem takeWhile_path (segments : List String) (ts : List Nested)
    (h : ∀ t ∈ ts.head?, t.isPathPart = false) :
    ((path segments).map Nested.token ++ ts).takeWhile Nested.isPathPart =
        (path segments).map Nested.token ∧
      ((path segments).map Nested.token ++ ts).dropWhile Nested.isPathPart = ts :=
  ⟨Text.takeWhile_append (fun _ => Command.isPathPart_of_mem) h,
    Text.dropWhile_append (fun _ => Command.isPathPart_of_mem) h⟩

theorem notKeyword_path (segments : List String) :
    ∀ t ∈ (path segments).map Nested.token, t.isWhere = false ∧ t.isSet = false := by
  intro t ht
  obtain ⟨s, hs, rfl⟩ := List.mem_map.1 ht
  rcases Command.mem_path hs with ⟨n, rfl⟩ | rfl <;> exact ⟨rfl, rfl⟩

end RowStatement

namespace Table

variable {t : Table} {segments : List String}

/-- A table with its alias. -/
theorem exists_nests_sourceTokens (h : t.origin = .path segments) :
    ∃ ts, Nests t.sourceTokens ts ∧ RowStatement.NamesTable ts segments t.aliasName := by
  rw [sourceTokens, h]
  have hkeyword : Nests [keyword "AS", .name t.aliasName] _ :=
    (nests_token (isInner_keyword "AS")).append (nests_token (isInner_name t.aliasName))
  refine ⟨_, (Command.nests_path segments).append hkeyword, ?_, ?_⟩
  · obtain ⟨htake, hdrop⟩ := RowStatement.takeWhile_path segments
      [.token (keyword "AS"), .token (.name t.aliasName)] (by rintro _ ⟨⟩; rfl)
    rw [RowStatement.tableOf]
    simp only [List.singleton_append, htake, hdrop, (Command.nests_path segments).flatten_eq]
  · intro u hu
    rcases List.mem_append.1 hu with hu | hu
    · exact RowStatement.notKeyword_path segments u hu
    · simp only [List.singleton_append, List.mem_cons, List.not_mem_nil, or_false] at hu
      rcases hu with rfl | rfl <;> exact ⟨rfl, rfl⟩

/-- A table without its alias, which is the last part of its name. -/
theorem exists_nests_targetTokens (h : t.origin = .path segments) :
    ∃ ts, Nests t.targetTokens ts ∧ RowStatement.NamesTable ts segments t.aliasName := by
  rw [targetTokens]
  split
  · rename_i hlast
    rw [h] at hlast ⊢
    refine ⟨_, Command.nests_path segments, ?_, RowStatement.notKeyword_path segments⟩
    obtain ⟨htake, hdrop⟩ := RowStatement.takeWhile_path segments [] (by simp)
    rw [List.append_nil] at htake hdrop
    rw [RowStatement.tableOf]
    simp only [htake, hdrop, (Command.nests_path segments).flatten_eq, getLast?_path]
    rw [show segments.getLast? = some t.aliasName from hlast]
    rfl
  · exact exists_nests_sourceTokens h

end Table

/-! ### Assignments -/

theorem Nested.mem_commas {groups : List (List Nested)} {t : Nested} (h : t ∈ commas groups) :
    t = .token (punctuation ",") ∨ ∃ ts ∈ groups, t ∈ ts := by
  induction groups with
  | nil => cases h
  | cons ts groups ih =>
    cases groups with
    | nil =>
      rw [commas_singleton] at h
      exact .inr ⟨ts, List.mem_singleton_self ts, h⟩
    | cons us groups =>
      rw [commas_cons_cons] at h
      rcases List.mem_append.1 h with h | h
      · exact .inr ⟨ts, List.mem_cons_self, h⟩
      rcases List.mem_cons.1 h with rfl | h
      · exact .inl rfl
      · exact (ih h).imp_right fun ⟨vs, hvs, ht⟩ => ⟨vs, List.mem_cons_of_mem ts hvs, ht⟩

namespace Command

/-- The trees of an assignment, none of which ends it or the assignments. -/
theorem exists_nests_assignmentTokens (e : String × Value) :
    ∃ ts, Nests (assignmentTokens e) ts ∧ Nested.assignment? ts = some e ∧
      ∀ t ∈ ts, t.isToken (punctuation ",") = false ∧ t.isWhere = false := by
  obtain ⟨t, ht, hcomma, hvalue⟩ := e.2.readsAs_tokens
  have hwhere : t.isWhere = false := by
    cases t with
    | parens inside => rfl
    | token s =>
      rw [Nested.isWhere, Nested.isToken, decide_eq_false_iff_not]
      rintro rfl
      cases hvalue
  refine ⟨[.token (.name e.1), .token (punctuation "="), t],
    (nests_token (isInner_name e.1)).append ((nests_token (by decide)).append ht), ?_, ?_⟩
  · rw [Nested.assignment?, hvalue]
    rfl
  · simp only [List.forall_mem_cons]
    exact ⟨⟨rfl, rfl⟩, ⟨rfl, rfl⟩, ⟨hcomma, hwhere⟩, by simp⟩

theorem exists_nests_assignments {entries : List (String × Value)} (hne : entries ≠ []) :
    ∃ ts, Nests (commas (entries.map assignmentTokens)) ts ∧
      Nested.assignments? ts = some entries ∧ ∀ t ∈ ts, t.isWhere = false := by
  have htrees : ∃ trees, List.Forall₂ Nests (entries.map assignmentTokens) trees ∧
      trees.mapM Nested.assignment? = some entries ∧
      ∀ ts ∈ trees, ∀ t ∈ ts, t.isToken (punctuation ",") = false ∧ t.isWhere = false := by
    clear hne
    induction entries with
    | nil => exact ⟨[], .nil, rfl, by simp⟩
    | cons e entries ih =>
      obtain ⟨ts, hnests, hread, hts⟩ := exists_nests_assignmentTokens e
      obtain ⟨trees, hforall, hreads, htrees⟩ := ih
      exact ⟨ts :: trees, .cons hnests hforall, by simp [hread, hreads],
        List.forall_mem_cons.2 ⟨hts, htrees⟩⟩
  obtain ⟨trees, hforall, hreads, htrees⟩ := htrees
  refine ⟨Nested.commas trees, Nests.commas hforall, ?_, ?_⟩
  · cases trees with
    | nil =>
      cases entries with
      | nil => exact absurd rfl hne
      | cons e entries => cases hforall
    | cons ts trees =>
      rw [Nested.assignments?,
        Nested.splitCommas_map_commas _ _ _ fun ts hts t ht => (htrees ts hts t ht).1]
      simpa [List.mapM_map, Function.comp_def] using hreads
  · intro t ht
    obtain rfl | ⟨ts, hts, ht⟩ := Nested.mem_commas ht
    · rfl
    · exact (htrees ts hts t ht).2

end Command

/-! ### Statements -/

namespace RowStatement

variable {front behind table : List Nested} {treatment : Treatment} {segments : List String}
  {aliasName : String} {condition : Option Formula}

/-- The condition begins at the first keyword for it. -/
theorem ofNested_append (hfront : ∀ t ∈ front, t.isWhere = false)
    (hbehind : ∀ t ∈ behind.head?, t.isWhere)
    (hread : ofFront front = some (treatment, table)) (htable : NamesTable table segments aliasName)
    (hcondition : conditionOf behind = some condition) :
    ofNested (front ++ behind) =
      some ⟨treatment, path segments, some (.name aliasName), condition⟩ := by
  have hkept : ∀ t ∈ front, (!t.isWhere) = true := by simpa using hfront
  have hended : ∀ t ∈ behind.head?, (!t.isWhere) = false := by simpa using hbehind
  rw [ofNested, Text.takeWhile_append hkept hended, Text.dropWhile_append hkept hended, hread]
  simp only [Option.bind_eq_bind, Option.bind_some, htable.tableOf, hcondition]
  rfl

end RowStatement

variable {d : Dialect} {t : Table} {filter : Option Predicate} {segments : List String} {sql : Sql}

/-- What is written is read as the statement that the trees are. -/
theorem RowStatement.read_text {tokens : List Token} {trees : List Nested} {r : RowStatement}
    (hwrites : Sql.Writes d.style sql tokens) (hnests : Nests tokens trees)
    (hread : ofNested trees = some r) : read d sql.text = some r := by
  rw [read, hwrites.lex_text, Option.bind_some, hnests.ofTokens_eq, Option.bind_some, hread]

/-- The trees of a table between keywords in front, and more behind, have no condition. -/
theorem RowStatement.isWhere_eq_false_of_mem {words : List String} {table : List Nested}
    {aliasName : String} (hwords : "WHERE" ∉ words) (htable : NamesTable table segments aliasName)
    {u : Nested} (hu : u ∈ (keywords words).map Nested.token ++ table) : u.isWhere = false := by
  rcases List.mem_append.1 hu with hu | hu
  · obtain ⟨s, hs, rfl⟩ := List.mem_map.1 hu
    obtain ⟨w, hw, rfl⟩ := List.mem_map.1 hs
    rw [Nested.isWhere, Nested.isToken, decide_eq_false_iff_not]
    rintro ⟨⟩
    exact hwords hw
  · exact (htable.notKeyword u hu).1

theorem Command.read_delete (hd : d.Lexical) (hrows : d.PlainRows)
    (horigin : t.origin = .path segments) (hsql : (Command.delete t filter).sql d = .ok sql) :
    RowStatement.read d sql.text =
      some ⟨.delete, path segments, some (.name t.aliasName), Query.formula d filter⟩ := by
  obtain ⟨table, htable, hnames⟩ := Table.exists_nests_targetTokens horigin
  obtain ⟨behind, hbehind, hhead, hcondition⟩ := Query.exists_nests_filterTokens hrows filter
  have hsound : (Command.delete t filter).origin.Sound d.style := by
    rw [Command.origin, horigin]
    trivial
  refine RowStatement.read_text (Command.writes_sql hd hsound hsql)
    (((nests_keywords ["DELETE", "FROM"]).append htable).append hbehind) ?_
  refine RowStatement.ofNested_append ?_ hhead rfl hnames hcondition
  exact fun u hu => RowStatement.isWhere_eq_false_of_mem (by decide) hnames hu

theorem Command.read_update (hd : d.Lexical) (hrows : d.PlainRows)
    (horigin : t.origin = .path segments) {a : Assignments} (ha : a.isEmpty = false)
    (hsql : (Command.update t a filter).sql d = .ok sql) :
    RowStatement.read d sql.text =
      some ⟨.update a.entries, path segments, some (.name t.aliasName),
        Query.formula d filter⟩ := by
  obtain ⟨table, htable, hnames⟩ := Table.exists_nests_targetTokens horigin
  obtain ⟨assignments, hassignments, hread, hwhere⟩ :=
    exists_nests_assignments (by simpa [Assignments.isEmpty] using ha : a.entries ≠ [])
  obtain ⟨behind, hbehind, hhead, hcondition⟩ := Query.exists_nests_filterTokens hrows filter
  have hsound : (Command.update t a filter).origin.Sound d.style := by
    rw [Command.origin, horigin]
    trivial
  have hfront : Nests (keyword "UPDATE" :: t.targetTokens ++
      keyword "SET" :: commas (a.entries.map assignmentTokens)) _ :=
    ((nests_keywords ["UPDATE"]).append htable).append
      ((nests_token (isInner_keyword "SET")).append hassignments)
  refine RowStatement.read_text (Command.writes_sql hd hsound hsql) (hfront.append hbehind) ?_
  refine RowStatement.ofNested_append ?_ hhead ?_ hnames hcondition
  · intro u hu
    rcases List.mem_append.1 hu with hu | hu
    · exact RowStatement.isWhere_eq_false_of_mem (by decide) hnames hu
    rcases List.mem_cons.1 hu with rfl | hu
    · rfl
    · exact hwhere u hu
  · -- the table ends where the assignments begin
    have hkept : ∀ u ∈ table, (!u.isSet) = true := fun u hu => by simp [(hnames.notKeyword u hu).2]
    have hended : ∀ u ∈ (Nested.token (keyword "SET") :: assignments).head?,
        (!u.isSet) = false := by
      rintro _ ⟨⟩
      rfl
    have hfront : RowStatement.ofFront ((keywords ["UPDATE"]).map Nested.token ++ table ++
        ([.token (keyword "SET")] ++ assignments)) =
        (Nested.assignments? ((table ++ .token (keyword "SET") :: assignments).dropWhile
          (!·.isSet)).tail).map fun assigned => (Treatment.update assigned,
            (table ++ .token (keyword "SET") :: assignments).takeWhile (!·.isSet)) := by
      rw [List.append_assoc]
      rfl
    rw [hfront, Text.takeWhile_append hkept hended, Text.dropWhile_append hkept hended,
      List.tail_cons, hread]
    rfl

/-- A query of one table is counted with its filter. -/
theorem Query.read_count {q : Query} (hd : q.dialect.Lexical) (hrows : q.dialect.PlainRows)
    (horigin : q.primary.origin = .path segments) (hjoins : q.joins = [])
    (hsql : q.countSql = .ok sql) :
    RowStatement.read q.dialect sql.text =
      some ⟨.count, path segments, some (.name q.primary.aliasName),
        formula q.dialect q.filter⟩ := by
  obtain ⟨table, htable, hnames⟩ := Table.exists_nests_sourceTokens horigin
  obtain ⟨behind, hbehind, hhead, hcondition⟩ := exists_nests_filterTokens hrows q.filter
  have hsound : q.Sound := by
    refine ⟨hd, fun t ht => ?_⟩
    rw [tables, hjoins, List.map_nil, List.mem_singleton] at ht
    rw [ht, horigin]
    trivial
  have hcount : q.countTokens = (keywords ["SELECT", "COUNT"] ++ parens [punctuation "*"]) ++
      (keywords ["FROM"] ++ q.primary.sourceTokens) ++ filterTokens q.dialect q.filter := by
    simp [countTokens, sourceTokens, hjoins, keywords]
  have hfront : Nests ((keywords ["SELECT", "COUNT"] ++ parens [punctuation "*"]) ++
      (keywords ["FROM"] ++ q.primary.sourceTokens)) _ :=
    ((nests_keywords ["SELECT", "COUNT"]).append (nests_token (by decide)).parens).append
      ((nests_keywords ["FROM"]).append htable)
  have hwrites := writes_countSql hsound hsql
  rw [hcount] at hwrites
  refine RowStatement.read_text hwrites (hfront.append hbehind) ?_
  refine RowStatement.ofNested_append ?_ hhead rfl hnames hcondition
  intro u hu
  rcases List.mem_append.1 hu with hu | hu
  · simp only [keywords, List.map_cons, List.map_nil, List.cons_append, List.nil_append,
      List.mem_cons, List.not_mem_nil, or_false] at hu
    rcases hu with rfl | rfl | rfl <;> rfl
  · exact RowStatement.isWhere_eq_false_of_mem (by decide) hnames hu

end Discography
