import Discography.Proofs.Filter.Tokens

/-!
# Outlines of values, predicates and tables

The outline of a piece of SQL under a renaming has the renamed names, and one literal of each kind
in the place of all its literals. Two pieces with equal outlines differ in names and literals only,
so that their tokens agree in kind, and in everything but names and literals. A value, a predicate
and a table have outlines as well, and the SQL of the outline is the outline of the SQL.

## Main definitions

* `Token.blank`: a token without its name or literal
* `Sql.outline`: the outline of a piece of SQL
* `Value.outline`, `Predicate.outline`, `Table.outline`: outlines of what SQL is written for

## Main results

* `Sql.blank_tokens_outline`: a piece of SQL and its outline have the same tokens up to names and
  literals
* `Value.sql_outline`, `Predicate.sql_outline`: the SQL of outlines
-/

namespace Discography

open Token

variable {g : String → String} {style : TextStyle} {d : Dialect}

/-! ### SQL -/

/-- A token without its name or its literal, of which the kind remains. -/
def Token.blank : Token → Token
  | keyword w => keyword w
  | punctuation s => punctuation s
  | name _ => name ""
  | null => null
  | boolean _ => boolean true
  | integer _ => integer 0
  | real _ => real ⟨0⟩
  | text _ => text ""
  | blob _ => blob []

/-- A lexeme with its name renamed, or with one literal of the kind of its own. -/
def Lexeme.outline (g : String → String) : Lexeme → Lexeme
  | space => space
  | word w => word (if w = "FALSE" then "TRUE" else w)
  | symbol s => symbol s
  | name n => name (g n)
  | integer _ => integer 0
  | real _ => real ⟨0⟩
  | text style _ => text style ""
  | blob _ => blob []

theorem Lexeme.outline_outline (f g : String → String) (l : Lexeme) :
    (l.outline g).outline f = l.outline (f ∘ g) := by
  cases l with
  | word w => by_cases h : w = "FALSE" <;> simp [outline, h]
  | _ => rfl

/-- The outline of a lexeme is read as the same token, up to its name or literal. -/
theorem Lexeme.blank_token?_outline (g : String → String) (l : Lexeme) :
    (l.outline g).token?.map blank = l.token?.map blank := by
  cases l with
  | word w =>
    by_cases h : w = "FALSE"
    · subst h
      rfl
    · simp [outline, h]
  | _ => rfl

namespace Sql

/-- The outline of a piece of SQL. -/
def outline (g : String → String) (sql : Sql) : Sql := sql.map (Lexeme.outline g)

theorem outline_outline (f g : String → String) (sql : Sql) :
    Sql.outline f (Sql.outline g sql) = Sql.outline (f ∘ g) sql := by
  simp only [outline, List.map_map]
  exact List.map_congr_left fun l _ => l.outline_outline f g

theorem blank_tokens_outline (g : String → String) (sql : Sql) :
    (Sql.outline g sql).tokens.map blank = sql.tokens.map blank := by
  have h := fun l : Lexeme => l.blank_token?_outline g
  simp only [outline, tokens, List.filterMap_map, List.map_filterMap]
  exact List.filterMap_congr fun l _ => h l

@[simp] theorem outline_nil : Sql.outline g [] = [] := rfl

@[simp] theorem outline_append (a b : Sql) :
    Sql.outline g (a ++ b) = Sql.outline g a ++ Sql.outline g b :=
  List.map_append

@[simp] theorem outline_cons (l : Lexeme) (sql : Sql) :
    Sql.outline g (l :: sql) = l.outline g :: Sql.outline g sql := rfl

@[simp] theorem outline_space : Lexeme.space.outline g = .space := rfl

@[simp] theorem outline_symbol (s : String) : (Lexeme.symbol s).outline g = .symbol s := rfl

@[simp] theorem outline_name (n : String) : (Lexeme.name n).outline g = .name (g n) := rfl

theorem outline_word {w : String} (h : IsKeyword w) : (Lexeme.word w).outline g = .word w := by
  have hne : w ≠ "FALSE" := by
    rintro rfl
    exact absurd h.2 (by decide)
  simp [Lexeme.outline, hne]

@[simp] theorem outline_parens (sql : Sql) :
    Sql.outline g (Sql.parens sql) = Sql.parens (Sql.outline g sql) := by
  simp [Sql.parens]

@[simp] theorem outline_commas (pieces : List Sql) :
    Sql.outline g (Sql.commas pieces) = Sql.commas (pieces.map (Sql.outline g)) := by
  induction pieces with
  | nil => rfl
  | cons a pieces ih =>
    cases pieces with
    | nil => simp [Sql.commas, List.intercalate]
    | cons b pieces =>
      simp only [Sql.commas, List.intercalate, List.intersperse, List.flatten_cons, List.map_cons,
        outline_append] at ih ⊢
      rw [ih]
      simp

@[simp] theorem outline_path (names : List String) :
    Sql.outline g (Sql.path names) = Sql.path (names.map g) := by
  induction names with
  | nil => rfl
  | cons n names ih =>
    cases names with
    | nil => rfl
    | cons n' names => simpa [Sql.path, List.intersperse] using ih

theorem outline_words (ws : List String) (h : ∀ w ∈ ws, IsKeyword w) :
    Sql.outline g (Sql.words ws) = Sql.words ws := by
  induction ws with
  | nil => rfl
  | cons w ws ih =>
    have hw := outline_word (g := g) (h w (by simp))
    have hws := ih fun w hw => h w (by simp [hw])
    cases ws with
    | nil => simp [Sql.words, hw]
    | cons w' ws =>
      simp only [Sql.words, List.map_cons, List.intersperse, outline_cons, outline_space, hw]
        at hws ⊢
      rw [hws]

theorem outline_clause (ws : List String) (h : ∀ w ∈ ws, IsKeyword w) (sql : Sql) :
    Sql.outline g (Sql.clause ws sql) = Sql.clause ws (Sql.outline g sql) := by
  simp [Sql.clause, outline_words ws h]

end Sql

/-! ### Values -/

namespace Value

mutual

/-- The literal of the kind of a value. A real without a literal stays as it is. -/
def outline : Value → Value
  | .null => .null
  | .boolean _ => .boolean true
  | .integer _ => .integer 0
  | .real x => .real (if x.isFinite then ⟨0⟩ else x)
  | .text _ => .text ""
  | .blob _ => .blob []
  | .list items => .list (outlineItems items)

/-- The literals of the kinds of the values of a list. -/
def outlineItems : List Value → List Value
  | [] => []
  | v :: rest => v.outline :: outlineItems rest

end

@[simp] theorem isEmpty_outlineItems (items : List Value) :
    (outlineItems items).isEmpty = items.isEmpty := by
  cases items <;> rfl

@[simp] theorem isList_outline (v : Value) : Expression.isList v.outline = Expression.isList v := by
  cases v <;> rfl

@[simp] theorem all_isList_outlineItems (items : List Value) :
    (outlineItems items).all Expression.isList = items.all Expression.isList := by
  induction items with
  | nil => rfl
  | cons v items ih => simp [outlineItems, ih]

mutual

theorem sql_outline (g : String → String) (style : TextStyle) : ∀ v : Value,
    v.outline.sql style = Sql.outline g <$> v.sql style
  | .null => rfl
  | .boolean true => rfl
  | .boolean false => rfl
  | .integer _ => rfl
  | .real x => by
    -- the literal that stands for all reals is a finite one, as those that can be written are
    by_cases hx : x.isFinite
    · have hzero : (⟨0⟩ : Binary64).isFinite := by decide
      simp [outline, Value.sql, hx, hzero]
      rfl
    · simp [outline, Value.sql, hx]
  | .text _ => rfl
  | .blob _ => rfl
  | .list items => by
    simp only [outline, Value.sql, itemsSql_outline g style items, bind_pure_comp, Functor.map_map,
      Sql.outline_parens, Sql.outline_commas]

theorem itemsSql_outline (g : String → String) (style : TextStyle) : ∀ items : List Value,
    itemsSql style (outlineItems items) = List.map (Sql.outline g) <$> itemsSql style items
  | [] => rfl
  | v :: rest => by
    simp only [outlineItems, itemsSql, sql_outline g style v, itemsSql_outline g style rest,
      bind_pure_comp, bind_map_left, map_bind, Functor.map_map, List.map_cons]

end

end Value

/-! ### Tables -/

/-- The origin with renamed names. -/
def Origin.outline (g : String → String) : Origin → Origin
  | path segments => path (segments.map g)
  | subquery sql => subquery (Sql.outline g sql)

/-- The declared column with renamed names. -/
def Attribute.outline (g : String → String) (a : Attribute) : Attribute :=
  { a with name := g a.name, references := a.references.map fun r => ⟨g r.table, g r.column⟩ }

/-- The column with renamed names. -/
def Column.outline (g : String → String) (c : Column) : Column :=
  ⟨c.origin.outline g, g c.aliasName, c.declared.outline g⟩

/-- The table with renamed names. -/
def Table.outline (g : String → String) (t : Table) : Table :=
  ⟨g t.aliasName, t.origin.outline g, t.attributes.map (Attribute.outline g)⟩

@[simp] theorem Table.aliasName_outline (t : Table) : (t.outline g).aliasName = g t.aliasName := rfl

@[simp] theorem Table.origin_outline (t : Table) : (t.outline g).origin = t.origin.outline g := rfl

@[simp] theorem Origin.isSubquery_outline (o : Origin) :
    (o.outline g).isSubquery = o.isSubquery := by
  cases o <;> rfl

theorem Origin.sql_outline (g : String → String) (o : Origin) :
    (o.outline g).sql = Sql.outline g o.sql := by
  cases o <;> simp [outline, Origin.sql]

theorem Column.sql_outline (g : String → String) (c : Column) :
    (c.outline g).sql = Sql.outline g c.sql := by
  simp [Column.sql, outline, Attribute.outline]

theorem Table.sourceSql_outline (g : String → String) (t : Table) :
    (t.outline g).sourceSql = Sql.outline g t.sourceSql := by
  simp [sourceSql, outline, Origin.sql_outline, Sql.outline_word (w := "AS") (by decide)]

/-- An injective renaming keeps apart the alias of a table and the name of its origin. -/
theorem Table.targetSql_outline (hg : g.Injective) (t : Table) :
    (t.outline g).targetSql = Sql.outline g t.targetSql := by
  -- the alias is left out if it is the name of the table: a renaming must not make them equal
  have hlast : (t.outline g).origin.lastSegment? = some (t.outline g).aliasName ↔
      t.origin.lastSegment? = some t.aliasName := by
    cases ht : t.origin with
    | subquery sql => simp [outline, ht, Origin.outline, Origin.lastSegment?]
    | path segments =>
      simp [outline, ht, Origin.outline, Origin.lastSegment?, List.getLast?_map, hg.eq_iff]
  rw [targetSql, targetSql]
  by_cases h : t.origin.lastSegment? = some t.aliasName
  · rw [if_pos h, if_pos (hlast.2 h)]
    exact t.origin.sql_outline g
  · rw [if_neg h, if_neg (mt hlast.1 h)]
    exact t.sourceSql_outline g

/-- A name is looked up under an injective renaming as it was before. -/
theorem Table.column?_outline (hg : g.Injective) (t : Table) (columnName : String) :
    (t.outline g).column? (g columnName) = (t.column? columnName).map (Column.outline g) := by
  -- an injective renaming leads to the same one of the columns
  have hfind : (t.attributes.map (Attribute.outline g)).find? (·.name = g columnName) =
      (t.attributes.find? (·.name = columnName)).map (Attribute.outline g) := by
    induction t.attributes with
    | nil => rfl
    | cons a attributes ih =>
      rw [List.map_cons, List.find?_cons, List.find?_cons, ih]
      by_cases h : a.name = columnName <;> simp [Attribute.outline, hg.eq_iff, h]
  rw [column?, column?, outline, hfind, Option.map_map, Option.map_map]
  rfl

/-! ### Expressions -/

namespace Expression

mutual

/-- The expression with renamed columns and with one literal of each kind. -/
def outline (g : String → String) : Expression → Expression
  | literal v => literal v.outline
  | column c => column (c.outline g)
  | tuple items => tuple (outlineItems g items)

/-- The outlines of the expressions of a list. -/
def outlineItems (g : String → String) : List Expression → List Expression
  | [] => []
  | e :: rest => e.outline g :: outlineItems g rest

end

@[simp] theorem isTuple_outline (e : Expression) : (e.outline g).isTuple = e.isTuple := by
  cases e <;> rfl

@[simp] theorem isEmpty_outlineItems (items : List Expression) :
    (outlineItems g items).isEmpty = items.isEmpty := by
  cases items <;> rfl

@[simp] theorem all_isTuple_outlineItems (items : List Expression) :
    (outlineItems g items).all isTuple = items.all isTuple := by
  induction items with
  | nil => rfl
  | cons e items ih => simp [outlineItems, ih]

mutual

theorem sql_outline (g : String → String) (d : Dialect) : ∀ e : Expression,
    (e.outline g).sql d = Sql.outline g <$> e.sql d
  | literal v => v.sql_outline g d.style
  | column c => congrArg Except.ok (c.sql_outline g)
  | tuple items => by
    simp only [outline, Expression.sql, itemsSql_outline g d items, bind_pure_comp, Functor.map_map,
      Sql.outline_parens, Sql.outline_commas]

theorem itemsSql_outline (g : String → String) (d : Dialect) : ∀ items : List Expression,
    itemsSql d (outlineItems g items) = List.map (Sql.outline g) <$> itemsSql d items
  | [] => rfl
  | e :: rest => by
    simp only [outlineItems, itemsSql, sql_outline g d e, itemsSql_outline g d rest,
      bind_pure_comp, bind_map_left, map_bind, Functor.map_map, List.map_cons]

end

/-- Rows stay rows. -/
theorem rowsSql_outline (g : String → String) (d : Dialect) (e : Expression) :
    (e.outline g).rowsSql d = Option.map (List.map (Sql.outline g)) <$> e.rowsSql d := by
  cases e with
  | column c => rfl
  | tuple items =>
    by_cases h : !items.isEmpty && items.all isTuple
    · simp [outline, rowsSql, h, itemsSql_outline, Outcome.map_eq_map]
    · simp [outline, rowsSql, h]
  | literal v =>
    cases v with
    | list items =>
      by_cases h : !items.isEmpty && items.all isList
      · simp [outline, Value.outline, rowsSql, h, Value.itemsSql_outline g, Outcome.map_eq_map]
      · simp [outline, Value.outline, rowsSql, h]
    | _ => rfl

end Expression

/-! ### Predicates -/

namespace Predicate

mutual

/-- The predicate with renamed columns and with one literal of each kind. -/
def outline (g : String → String) : Predicate → Predicate
  | literal _ => literal true
  | compare left op right => compare (left.outline g) op (right.outline g)
  | chain first rest => chain (first.outline g) (outlineRest g rest)

/-- The outlines of the later components of a chain. -/
def outlineRest (g : String → String) :
    List (Connective × Predicate) → List (Connective × Predicate)
  | [] => []
  | (c, p) :: rest => (c, p.outline g) :: outlineRest g rest

end

@[simp] theorem isChain_outline (p : Predicate) : (p.outline g).isChain = p.isChain := by
  cases p <;> rfl

theorem outlineRest_append (rest more : List (Connective × Predicate)) :
    outlineRest g (rest ++ more) = outlineRest g rest ++ outlineRest g more := by
  induction rest with
  | nil => rfl
  | cons component rest ih => simp [outlineRest, ih]

@[simp] theorem all_outlineRest (c : Connective) (rest : List (Connective × Predicate)) :
    (outlineRest g rest).all (·.1 = c) = rest.all (·.1 = c) := by
  induction rest with
  | nil => rfl
  | cons component rest ih => simp [outlineRest, ih]

theorem extend_outline (g : String → String) (c : Connective) (p q : Predicate) :
    extend c (p.outline g) (q.outline g) = (extend c p q).outline g := by
  cases p with
  | literal b => rfl
  | compare left op right => rfl
  | chain first rest =>
    -- a chain is prolonged by its own connective, and enclosed by the other one
    by_cases h : rest.all (·.1 = c)
    · simp only [extend, outline, all_outlineRest, h, if_true, outlineRest_append, outlineRest]
    · simp only [extend, outline, all_outlineRest, h]
      rfl

theorem foldl_and_outline (g : String → String) (p : Predicate) (rest : List Predicate) :
    (rest.map (outline g)).foldl and (p.outline g) = (rest.foldl and p).outline g := by
  induction rest generalizing p with
  | nil => rfl
  | cons q rest ih =>
    rw [List.map_cons, List.foldl_cons, List.foldl_cons, and, extend_outline]
    exact ih _

theorem all_outline (g : String → String) (ps : List Predicate) :
    all (ps.map (outline g)) = (all ps).map (outline g) := by
  cases ps with
  | nil => rfl
  | cons p rest => simp [all, foldl_and_outline]

theorem rowList_outline (hd : d.Lexical) (rows : List Sql) :
    d.rowList (rows.map (Sql.outline g)) = Sql.outline g (d.rowList rows) := by
  have hwords : ∀ ws : List String, (∀ w ∈ ws, IsKeyword w) →
      Sql.outline g (ws.flatMap fun w => [Lexeme.word w, .space]) =
        ws.flatMap fun w => [Lexeme.word w, .space] := by
    intro ws hws
    induction ws with
    | nil => rfl
    | cons w ws ih =>
      rw [List.flatMap_cons, Sql.outline_append, ih fun w hw => hws w (by simp [hw])]
      simp [Sql.outline_word (hws w (by simp))]
  simp [Dialect.rowList, Dialect.rowsOpening, hwords _ hd.rowsIntroduction]

theorem operator_outline (g : String → String) (op : Operator) : Sql.outline g op.sql = op.sql := by
  cases op <;> rfl

theorem compareSql_outline (g : String → String) (hd : d.Lexical) (left : Expression)
    (op : Operator) (right : Expression) :
    compareSql d (left.outline g) op (right.outline g) =
      Sql.outline g <$> compareSql d left op right := by
  -- whether there are rows to write is a matter of shape, which the outline keeps
  rw [compareSql, compareSql, Expression.isTuple_outline]
  split
  · rw [right.rowsSql_outline g d, left.sql_outline g d, right.sql_outline g d]
    simp only [bind_map_left, map_bind, bind_pure_comp, Functor.map_map]
    congr 1
    funext rows
    cases rows with
    | none => simp [operator_outline]
    | some rows => simp [operator_outline, rowList_outline hd]
  · rw [left.sql_outline g d, right.sql_outline g d]
    simp [operator_outline]

theorem keyword_outline (g : String → String) (c : Connective) :
    (Lexeme.word c.keyword).outline g = .word c.keyword :=
  Sql.outline_word (isKeyword_keyword c)

mutual

theorem sql_outline (g : String → String) (hd : d.Lexical) : ∀ p : Predicate,
    (p.outline g).sql d = Sql.outline g <$> p.sql d
  | literal true => rfl
  | literal false => rfl
  | compare left op right => compareSql_outline g hd left op right
  | chain first rest => by
    have hparens : ∀ sql : Sql, (if first.isChain then Sql.parens (Sql.outline g sql)
        else Sql.outline g sql) =
      Sql.outline g (if first.isChain then Sql.parens sql else sql) := by
      intro sql
      split <;> simp
    simp only [outline, Predicate.sql, sql_outline g hd first, restSql_outline g hd rest,
      isChain_outline, bind_pure_comp, bind_map_left, map_bind, Functor.map_map, hparens,
      Sql.outline_append]

theorem restSql_outline (g : String → String) (hd : d.Lexical) :
    ∀ rest : List (Connective × Predicate),
      restSql d (outlineRest g rest) = Sql.outline g <$> restSql d rest
  | [] => rfl
  | (c, p) :: rest => by
    simp only [outlineRest, restSql, sql_outline g hd p, restSql_outline g hd rest, bind_pure_comp,
      bind_map_left, map_bind, Functor.map_map, Sql.outline_append, Sql.outline_cons,
      Sql.outline_space, keyword_outline, Sql.outline_parens]

end

end Predicate

end Discography
