import Discography.Proofs.Sql.Writes
import Discography.Filter.Predicate
import Discography.Sql.Literal

/-!
# The tokens that a predicate prescribes

Which tokens a value, an expression and a predicate consist of, read off their structure: names and
values stand in it as they were given. What is written for them is read as these tokens.

## Main definitions

* `Value.tokens`, `Expression.tokens`, `Predicate.tokens`: the tokens
* `Dialect.Lexical`: the words of a dialect are keywords

## Main results

* `Value.writes_sql`, `Expression.writes_sql`, `Predicate.writes_sql`: what is written for them
-/

namespace Discography

open Sql Token

variable {style : TextStyle} {d : Dialect}

/-! ### Values -/

namespace Value

mutual

/-- The tokens of a value. -/
def tokens : Value → List Token
  | .null => [.null]
  | .boolean b => [.boolean b]
  | .integer i => [.integer i.toInt]
  | .real x => [.real x]
  | .text s => [.text s]
  | .blob bytes => [.blob bytes]
  | .list items => parens (commas (itemsTokens items))

/-- The tokens of each value of a list. -/
def itemsTokens : List Value → List (List Token)
  | [] => []
  | v :: rest => v.tokens :: itemsTokens rest

end

mutual

theorem writes_sql : ∀ (v : Value) {sql : Sql}, v.sql style = .ok sql → Writes style sql v.tokens
  | .null, _, h => by
    obtain rfl := Except.ok.inj h
    exact writes_word (by decide)
  | .boolean true, _, h => by
    obtain rfl := Except.ok.inj h
    exact writes_word (by decide)
  | .boolean false, _, h => by
    obtain rfl := Except.ok.inj h
    exact writes_word (by decide)
  | .integer i, _, h => by
    obtain rfl := Except.ok.inj h
    exact writes_integer i.toInt
  | .real x, sql, h => by
    have hfinite : x.isFinite ∧ [Lexeme.real x] = sql := by
      rw [Value.sql] at h
      split at h
      · exact ⟨‹_›, Except.ok.inj h⟩
      · exact absurd h (by simp)
    obtain ⟨hx, rfl⟩ := hfinite
    exact writes_singleton (l := .real x) hx
  | .text s, _, h => by
    obtain rfl := Except.ok.inj h
    exact writes_singleton (l := .text style s) rfl
  | .blob bytes, _, h => by
    obtain rfl := Except.ok.inj h
    exact writes_singleton (l := .blob bytes) trivial
  | .list items, _, h => by
    simp only [Value.sql, Outcome.bind_eq_ok, Outcome.pure_eq_ok] at h
    obtain ⟨pieces, hpieces, rfl⟩ := h
    exact (writes_commas (writes_itemsSql items hpieces)).parens

theorem writes_itemsSql : ∀ (items : List Value) {pieces : List Sql},
    itemsSql style items = .ok pieces → List.Forall₂ (Writes style) pieces (itemsTokens items)
  | [], _, h => by
    obtain rfl := Except.ok.inj h
    exact .nil
  | v :: rest, _, h => by
    simp only [itemsSql, Outcome.bind_eq_ok, Outcome.pure_eq_ok] at h
    obtain ⟨first, hfirst, pieces, hpieces, rfl⟩ := h
    exact .cons (writes_sql v hfirst) (writes_itemsSql rest hpieces)

end

end Value

/-! ### Expressions -/

/-- The tokens of a column. -/
def Column.tokens (c : Column) : List Token := path [c.aliasName, c.name]

theorem Column.writes_sql (c : Column) : Writes style c.sql c.tokens := writes_path _

namespace Expression

mutual

/-- The tokens of an expression. -/
def tokens : Expression → List Token
  | literal v => v.tokens
  | column c => c.tokens
  | tuple items => parens (commas (itemsTokens items))

/-- The tokens of each expression of a list. -/
def itemsTokens : List Expression → List (List Token)
  | [] => []
  | e :: rest => e.tokens :: itemsTokens rest

end

/-- The tokens of each row of an expression that consists of rows. -/
def rowsTokens : Expression → Option (List (List Token))
  | tuple items => if !items.isEmpty && items.all isTuple then some (itemsTokens items) else none
  | literal (.list items) =>
    if !items.isEmpty && items.all isList then some (Value.itemsTokens items) else none
  | _ => none

mutual

theorem writes_sql : ∀ (e : Expression) {sql : Sql},
    e.sql d = .ok sql → Writes d.style sql e.tokens
  | literal v, _, h => v.writes_sql h
  | column c, _, h => by
    obtain rfl := Except.ok.inj h
    exact c.writes_sql
  | tuple items, _, h => by
    simp only [Expression.sql, Outcome.bind_eq_ok, Outcome.pure_eq_ok] at h
    obtain ⟨pieces, hpieces, rfl⟩ := h
    exact (writes_commas (writes_itemsSql items hpieces)).parens

theorem writes_itemsSql : ∀ (items : List Expression) {pieces : List Sql},
    itemsSql d items = .ok pieces → List.Forall₂ (Writes d.style) pieces (itemsTokens items)
  | [], _, h => by
    obtain rfl := Except.ok.inj h
    exact .nil
  | e :: rest, _, h => by
    simp only [itemsSql, Outcome.bind_eq_ok, Outcome.pure_eq_ok] at h
    obtain ⟨first, hfirst, pieces, hpieces, rfl⟩ := h
    exact .cons (writes_sql e hfirst) (writes_itemsSql rest hpieces)

end

theorem writes_rows_of_if {rows : Option (List Sql)} {groups : List (List Token)} {b : Bool}
    {pieces : Except NoLiteral (List Sql)}
    (hpieces : ∀ {ps}, pieces = .ok ps → List.Forall₂ (Writes style) ps groups)
    (h : (if b then pieces.map some else .ok none) = .ok rows) :
    Option.Rel (List.Forall₂ (Writes style)) rows (if b then some groups else none) := by
  cases b with
  | false =>
    obtain rfl := Except.ok.inj h
    exact .none
  | true =>
    obtain ⟨ps, hps, rfl⟩ := Outcome.map_eq_ok.1 h
    exact .some (hpieces hps)

/-- Rows are written where there are rows to be written, and as their tokens. -/
theorem writes_rowsSql {e : Expression} {rows : Option (List Sql)} (h : e.rowsSql d = .ok rows) :
    Option.Rel (List.Forall₂ (Writes d.style)) rows e.rowsTokens := by
  cases e with
  | column c =>
    obtain rfl := Except.ok.inj h
    exact .none
  | tuple items => exact writes_rows_of_if (writes_itemsSql items) h
  | literal v =>
    cases v with
    | list items => exact writes_rows_of_if (Value.writes_itemsSql items) h
    | _ =>
      obtain rfl := Except.ok.inj h
      exact .none

end Expression

/-! ### Predicates -/

/-- The tokens of an operator. -/
def Operator.tokens : Operator → List Token
  | eq => [punctuation "="]
  | notEq => [punctuation "<>"]
  | isIn => [keyword "IN"]
  | is => [keyword "IS"]
  | isNot => [keyword "IS", keyword "NOT"]

theorem Operator.writes_sql (op : Operator) : Writes style op.sql op.tokens := by
  cases op with
  | eq => exact writes_symbol (by simp [IsMark])
  | notEq => exact writes_symbol (by simp [IsMark])
  | isIn => exact writes_keyword (by decide)
  | is => exact writes_keyword (by decide)
  | isNot => exact writes_words _ (by decide)

/-- The words of the dialect are keywords. -/
structure Dialect.Lexical (d : Dialect) : Prop where
  truncation : ∀ w ∈ d.truncation, IsKeyword w
  rowsIntroduction : ∀ w ∈ d.rowsIntroduction, IsKeyword w

theorem Dialect.lexical_sqlite : sqlite.Lexical := ⟨by decide, by decide⟩

theorem Dialect.lexical_mysql : mysql.Lexical := ⟨by decide, by decide⟩

/-- The tokens of rows on the right of `IN`. -/
def Dialect.rowListTokens (d : Dialect) (rows : List (List Token)) : List Token :=
  parens (keywords d.rowsIntroduction ++ commas rows)

theorem Dialect.writes_rowList (hd : d.Lexical) {rows : List Sql} {groups : List (List Token)}
    (h : List.Forall₂ (Writes style) rows groups) :
    Writes style (d.rowList rows) (d.rowListTokens groups) := by
  have hwords : ∀ ws : List String, (∀ w ∈ ws, IsKeyword w) →
      Writes style ((ws.flatMap fun w => [Lexeme.word w, .space]) ++ Sql.commas rows)
        (keywords ws ++ commas groups) := by
    -- the words stand in front of the rows, each with a space behind it
    intro ws hws
    induction ws with
    | nil => exact writes_commas h
    | cons w ws ih =>
      have hrest := ih fun w hw => hws w (by simp [hw])
      simpa [keywords] using (writes_keyword (hws w (by simp))).space_append hrest
  simpa [rowList, rowsOpening, Sql.parens, rowListTokens] using
    (hwords _ hd.rowsIntroduction).parens

namespace Predicate

/-- The tokens of the right operand of a comparison; the rows behind `IN` are introduced as the
dialect asks. -/
def rightTokens (d : Dialect) (left : Expression) (op : Operator) (right : Expression) :
    List Token :=
  if op = .isIn && left.isTuple then right.rowsTokens.elim right.tokens d.rowListTokens
  else right.tokens

mutual

/-- The tokens of a predicate. Every later component of a chain stands in parentheses, and so does a
first one that is a chain itself. -/
def tokens (d : Dialect) : Predicate → List Token
  | literal b => [.boolean b]
  | compare left op right => left.tokens ++ op.tokens ++ rightTokens d left op right
  | chain first rest =>
    (if first.isChain then parens (first.tokens d) else first.tokens d) ++ restTokens d rest

/-- The tokens of the later components of a chain. -/
def restTokens (d : Dialect) : List (Connective × Predicate) → List Token
  | [] => []
  | (c, p) :: rest => keyword c.keyword :: parens (p.tokens d) ++ restTokens d rest

end

theorem writes_compareSql (hd : d.Lexical) {left right : Expression} {op : Operator} {sql : Sql}
    (h : compareSql d left op right = .ok sql) :
    Writes d.style sql (left.tokens ++ op.tokens ++ rightTokens d left op right) := by
  rw [compareSql] at h
  rw [rightTokens]
  split at h
  · rename_i hrows
    rw [if_pos hrows]
    simp only [Outcome.bind_eq_ok] at h
    obtain ⟨rows, hrow, h⟩ := h
    -- an operand without rows is written like any other one, also behind `IN`
    have hrel := Expression.writes_rowsSql hrow
    generalize right.rowsTokens = groups at hrel ⊢
    cases hrel with
    | none =>
      simp only [Outcome.bind_eq_ok, Outcome.pure_eq_ok] at h
      obtain ⟨rightSql, hright, leftSql, hleft, rfl⟩ := h
      exact ((left.writes_sql hleft).space_append op.writes_sql).space_append
        (right.writes_sql hright)
    | some hrel =>
      simp only [Outcome.bind_eq_ok, Outcome.pure_eq_ok] at h
      obtain ⟨_, rfl, leftSql, hleft, rfl⟩ := h
      exact ((left.writes_sql hleft).space_append op.writes_sql).space_append
        (d.writes_rowList hd hrel)
  · rename_i hrows
    rw [if_neg hrows]
    simp only [Outcome.bind_eq_ok, Outcome.pure_eq_ok] at h
    obtain ⟨leftSql, hleft, rightSql, hright, rfl⟩ := h
    exact ((left.writes_sql hleft).space_append op.writes_sql).space_append
      (right.writes_sql hright)

theorem isKeyword_keyword (c : Connective) : IsKeyword c.keyword := by cases c <;> decide

theorem delimited_restSql {rest : List (Connective × Predicate)} {sql : Sql}
    (h : restSql d rest = .ok sql) : Delimited sql := by
  cases rest with
  | nil =>
    obtain rfl := Except.ok.inj h
    exact delimited_nil
  | cons component rest =>
    simp only [restSql, Outcome.bind_eq_ok, Outcome.pure_eq_ok] at h
    obtain ⟨_, -, _, -, rfl⟩ := h
    exact delimited_space_cons

mutual

theorem writes_sql (hd : d.Lexical) : ∀ (p : Predicate) {sql : Sql},
    p.sql d = .ok sql → Writes d.style sql (p.tokens d)
  | literal b, _, h => (Value.boolean b).writes_sql h
  | compare _ _ _, _, h => writes_compareSql hd h
  | chain first rest, _, h => by
    simp only [Predicate.sql, Outcome.bind_eq_ok, Outcome.pure_eq_ok] at h
    obtain ⟨firstSql, hfirst, restSql, hrest, rfl⟩ := h
    have hwrites := writes_sql hd first hfirst
    rw [tokens]
    refine Writes.append ?_ (writes_restSql hd rest hrest) (delimited_restSql hrest)
    -- a chain as the first component of a chain is set in parentheses
    split
    · exact hwrites.parens
    · exact hwrites

theorem writes_restSql (hd : d.Lexical) : ∀ (rest : List (Connective × Predicate)) {sql : Sql},
    restSql d rest = .ok sql → Writes d.style sql (restTokens d rest)
  | [], _, h => by
    obtain rfl := Except.ok.inj h
    exact writes_nil
  | (c, p) :: rest, _, h => by
    simp only [restSql, Outcome.bind_eq_ok, Outcome.pure_eq_ok] at h
    obtain ⟨componentSql, hcomponent, restSql, hrest, rfl⟩ := h
    have hkeyword : Writes d.style [.word c.keyword] _ := writes_keyword (isKeyword_keyword c)
    -- each later component is set in parentheses, whatever it is
    have hparens := (writes_sql hd p hcomponent).parens
    simpa [restTokens] using writes_space_cons ((hkeyword.space_append hparens).append
      (writes_restSql hd rest hrest) (delimited_restSql hrest))

end

end Predicate

end Discography
