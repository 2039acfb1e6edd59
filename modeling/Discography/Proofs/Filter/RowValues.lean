import Discography.Filter.Predicate
import Discography.Proofs.Outcome
import Discography.Proofs.Sql.Text

/-!
# Rows on the right of `IN`

A tuple and a list literal with the same items are written alike, so there are two ways to write a
row, and two to write several of them. Behind `IN` the rows of a tuple of tuples and those of a list
of lists are introduced as the dialect asks. A tuple with a list literal among its rows is taken for
any other operand: its rows stand in parentheses, and in a dialect with keywords in front of rows
these are missing.

## Main definitions

* `Expression.unfolded`: an expression with tuples in place of its list literals
* `Expression.IsRows`: an operand that consists of rows, in whichever way they are written
* `Expression.Uniform`: the rows of a tuple are tuples
* `Predicate.introducedSql`, `Predicate.enclosedSql`: a comparison with rows, with and without what
  introduces them

## Main results

* `Expression.sql_unfolded`: both ways to write a row are the same in SQL
* `Predicate.compareSql_of_uniform`, `Predicate.compareSql_of_not_uniform`: comparisons with rows
* `Predicate.rows_introduced_iff_uniform`: the comparisons whose rows are introduced
-/

namespace Discography

/-! ### Tuples and list literals -/

namespace Value

mutual

/-- The value with tuples in place of its lists, at any depth. -/
def unfolded : Value → Expression
  | .list items => .tuple (unfoldedItems items)
  | v => .literal v

/-- The values of a list, each with tuples in place of its lists. -/
def unfoldedItems : List Value → List Expression
  | [] => []
  | v :: rest => v.unfolded :: unfoldedItems rest

end

variable (d : Dialect)

mutual

theorem sql_unfolded : ∀ v : Value, v.unfolded.sql d = v.sql d.style
  | .null | .boolean _ | .integer _ | .real _ | .text _ | .blob _ => rfl
  | .list items => by
    rw [unfolded, Expression.sql, Value.sql, itemsSql_unfoldedItems items]

theorem itemsSql_unfoldedItems : ∀ items : List Value,
    Expression.itemsSql d (unfoldedItems items) = itemsSql d.style items
  | [] => rfl
  | v :: rest => by
    rw [unfoldedItems, Expression.itemsSql, itemsSql, sql_unfolded v, itemsSql_unfoldedItems rest]

end

end Value

namespace Expression

mutual

/-- The expression with tuples in place of its list literals, at any depth. -/
def unfolded : Expression → Expression
  | literal v => v.unfolded
  | column c => column c
  | tuple items => tuple (unfoldedItems items)

/-- The expressions of a list, each with tuples in place of its list literals. -/
def unfoldedItems : List Expression → List Expression
  | [] => []
  | e :: rest => e.unfolded :: unfoldedItems rest

end

theorem unfoldedItems_eq_map (items : List Expression) :
    unfoldedItems items = items.map unfolded := by
  induction items with
  | nil => rfl
  | cons e items ih => rw [unfoldedItems, ih, List.map_cons]

variable (d : Dialect)

mutual

/-- A list literal is written as the tuple of its items. -/
theorem sql_unfolded : ∀ e : Expression, e.unfolded.sql d = e.sql d
  | literal v => v.sql_unfolded d
  | column _ => rfl
  | tuple items => by rw [unfolded, sql, sql, itemsSql_unfoldedItems items]

theorem itemsSql_unfoldedItems : ∀ items : List Expression,
    itemsSql d (unfoldedItems items) = itemsSql d items
  | [] => rfl
  | e :: rest => by
    rw [unfoldedItems, itemsSql, itemsSql, sql_unfolded e, itemsSql_unfoldedItems rest]

end

theorem itemsSql_map_literal (items : List Value) :
    itemsSql d (items.map literal) = Value.itemsSql d.style items := by
  induction items with
  | nil => rfl
  | cons v items ih => rw [List.map_cons, itemsSql, ih, sql, Value.itemsSql]

theorem itemsSql_eq_ok {items : List Expression} {pieces : List Sql} :
    itemsSql d items = .ok pieces ↔
      List.Forall₂ (fun e piece => e.sql d = .ok piece) items pieces := by
  induction items generalizing pieces with
  | nil => simp [itemsSql, eq_comm]
  | cons e items ih =>
    simp only [itemsSql, Outcome.bind_eq_ok, Outcome.pure_eq_ok, ih]
    constructor
    · rintro ⟨first, hfirst, rest, hrest, rfl⟩
      exact .cons hfirst hrest
    · rintro (_ | ⟨hfirst, hrest⟩)
      exact ⟨_, hfirst, _, hrest, rfl⟩

/-! ### Operands that consist of rows -/

/-- The items of a tuple or of a list literal. -/
def items? : Expression → Option (List Expression)
  | tuple items => some items
  | literal (.list items) => some (items.map literal)
  | _ => none

/-- The operand has the rows as its items, and there is at least one. The operand and each of its
rows may be a tuple or a list literal. -/
structure IsRows (e : Expression) (rows : List Expression) : Prop where
  items : e.items? = some rows
  ne_nil : rows ≠ []
  row : ∀ row ∈ rows, row.items?.isSome

/-- The items of a tuple are tuples. The items of a list literal are always literals. -/
def Uniform : Expression → Prop
  | tuple items => ∀ item ∈ items, item.isTuple
  | _ => True

variable {d : Dialect} {e left right : Expression} {items rows : List Expression}

/-- Items are written in the same way in a tuple and in a list literal. -/
theorem sql_of_items? (h : e.items? = some items) :
    e.sql d = (itemsSql d items).map fun pieces => Sql.parens (Sql.commas pieces) := by
  cases e with
  | column c => cases h
  | tuple items' =>
    obtain rfl := Option.some.inj h
    rfl
  | literal v =>
    cases v with
    | list items' =>
      obtain rfl := Option.some.inj h
      rw [itemsSql_map_literal]
      rfl
    | _ => cases h

theorem rowsSql_of_uniform (hrows : e.IsRows rows) (huniform : e.Uniform) :
    e.rowsSql d = (itemsSql d rows).map some := by
  obtain ⟨hitems, hne, hrow⟩ := hrows
  cases e with
  | column c => cases hitems
  | tuple items =>
    obtain rfl := Option.some.inj hitems
    have hall : (!items.isEmpty && items.all isTuple) = true := by
      simpa [hne] using fun item hitem => huniform item hitem
    rw [rowsSql, if_pos hall]
  | literal v =>
    cases v with
    | list items =>
      obtain rfl := Option.some.inj hitems
      -- a literal that is a row is a list
      have hlist : ∀ v ∈ items, isList v = true := by
        intro v hv
        have hsome := hrow (literal v) (List.mem_map_of_mem hv)
        cases v <;> first | rfl | cases hsome
      have hall : (!items.isEmpty && items.all isList) = true := by
        simpa [by simpa using hne] using hlist
      rw [rowsSql, if_pos hall, itemsSql_map_literal]
    | _ => cases hitems

theorem rowsSql_of_not_uniform (huniform : ¬ e.Uniform) : e.rowsSql d = .ok none := by
  cases e with
  | column c => exact absurd trivial huniform
  | literal v => exact absurd trivial huniform
  | tuple items =>
    have hall : ¬ (!items.isEmpty && items.all isTuple) = true := by
      rw [Bool.and_eq_true, List.all_eq_true]
      exact fun h => huniform h.2
    rw [rowsSql, if_neg hall]

end Expression

namespace Predicate

open Expression

/-! ### Comparisons with rows -/

/-- The comparison of an operand with rows that are written in the given way. -/
def rowsComparison (d : Dialect) (write : List Sql → Sql) (left : Expression)
    (rows : List Expression) : Except NoLiteral Sql := do
  let rowsSql ← itemsSql d rows
  return (← left.sql d) ++ .space :: Operator.isIn.sql ++ .space :: write rowsSql

/-- The comparison with rows that are introduced as the dialect asks. -/
def introducedSql (d : Dialect) (left : Expression) (rows : List Expression) :
    Except NoLiteral Sql :=
  rowsComparison d d.rowList left rows

/-- The comparison with rows in parentheses, and nothing in front of them. -/
def enclosedSql (d : Dialect) (left : Expression) (rows : List Expression) :
    Except NoLiteral Sql :=
  rowsComparison d (fun rowsSql => Sql.parens (Sql.commas rowsSql)) left rows

variable {d : Dialect} {left right right' : Expression} {rows rows' : List Expression}

theorem compareSql_of_uniform (hleft : left.isTuple) (hrows : right.IsRows rows)
    (huniform : right.Uniform) :
    compareSql d left .isIn right = introducedSql d left rows := by
  rw [compareSql, if_pos (by simpa using hleft), rowsSql_of_uniform hrows huniform, introducedSql,
    rowsComparison]
  cases itemsSql d rows <;> rfl

theorem compareSql_of_not_uniform (hleft : left.isTuple) (hrows : right.IsRows rows)
    (huniform : ¬ right.Uniform) :
    compareSql d left .isIn right = enclosedSql d left rows := by
  rw [compareSql, if_pos (by simpa using hleft), rowsSql_of_not_uniform huniform,
    sql_of_items? hrows.items, enclosedSql, rowsComparison]
  cases itemsSql d rows <;> rfl

theorem rowList_eq_parens_iff {pieces : List Sql} :
    d.rowList pieces = Sql.parens (Sql.commas pieces) ↔ d.rowsIntroduction = [] := by
  rw [Dialect.rowList, Dialect.rowsOpening, Sql.parens]
  constructor
  · intro h
    have hlength := congrArg List.length h
    cases hwords : d.rowsIntroduction with
    | nil => rfl
    | cons w words =>
      simp only [hwords, List.flatMap_cons, List.length_append, List.length_cons,
        List.length_nil] at hlength
      omega
  · intro h
    rw [h]
    rfl

/-- Two ways to write rows lead to the same comparison if there is none, or if the rows are the
same. -/
theorem rowsComparison_eq_iff {write write' : List Sql → Sql} :
    rowsComparison d write left rows = rowsComparison d write' left rows ↔
      ∀ pieces leftSql, itemsSql d rows = .ok pieces → left.sql d = .ok leftSql →
        write pieces = write' pieces := by
  rw [rowsComparison, rowsComparison]
  cases itemsSql d rows with
  | error cause => simp [bind, Except.bind]
  | ok pieces => cases left.sql d <;> simp [bind, Except.bind, pure, Except.pure]

theorem rowsComparison_eq_ok {write : List Sql → Sql} {sql : Sql} :
    rowsComparison d write left rows = .ok sql ↔ ∃ pieces leftSql,
      itemsSql d rows = .ok pieces ∧ left.sql d = .ok leftSql ∧
        leftSql ++ .space :: Operator.isIn.sql ++ .space :: write pieces = sql := by
  simp only [rowsComparison, Outcome.bind_eq_ok, Outcome.pure_eq_ok, exists_and_left]

/-- Without what introduces the rows, a comparison that has a text has another one, unless nothing
does. -/
theorem enclosedSql_eq_introducedSql_iff :
    enclosedSql d left rows = introducedSql d left rows ↔
      d.rowsIntroduction = [] ∨ ¬ ∃ sql, introducedSql d left rows = .ok sql := by
  simp only [enclosedSql, introducedSql, rowsComparison_eq_iff, rowsComparison_eq_ok]
  constructor
  · intro h
    refine or_iff_not_imp_right.mpr fun htext => ?_
    obtain ⟨_, pieces, leftSql, hpieces, hleft, -⟩ := not_not.mp htext
    exact rowList_eq_parens_iff.mp (h pieces leftSql hpieces hleft).symm
  · rintro (hplain | hnone) pieces leftSql hpieces hleft
    · exact (rowList_eq_parens_iff.mpr hplain).symm
    · exact absurd ⟨_, pieces, leftSql, hpieces, hleft, rfl⟩ hnone

/-- The same rows are written alike, in whichever way each of them is given. -/
theorem rowsComparison_congr {write : List Sql → Sql}
    (h : rows.map unfolded = rows'.map unfolded) :
    rowsComparison d write left rows = rowsComparison d write left rows' := by
  rw [← unfoldedItems_eq_map, ← unfoldedItems_eq_map] at h
  rw [rowsComparison, rowsComparison, ← itemsSql_unfoldedItems d rows, h,
    itemsSql_unfoldedItems d rows']

/-- The text of a comparison with rows that are introduced. -/
theorem text_of_introducedSql {sql : Sql} (h : introducedSql d left rows = .ok sql) :
    ∃ leftSql pieces, left.sql d = .ok leftSql ∧
      List.Forall₂ (fun row piece => row.sql d = .ok piece) rows pieces ∧
      sql.text = leftSql.text ++ " IN " ++ d.rowListText (pieces.map Sql.text) := by
  obtain ⟨pieces, leftSql, hpieces, hleft, rfl⟩ := rowsComparison_eq_ok.mp h
  refine ⟨leftSql, pieces, hleft, (itemsSql_eq_ok d).mp hpieces, ?_⟩
  have hsymbol : Sql.text [.symbol ")"] = ")" := by decide
  have hoperator : Sql.text (.space :: Operator.isIn.sql ++ [.space]) = " IN " := by decide
  have hrows : (d.rowList pieces).text = d.rowListText (pieces.map Sql.text) := by
    rw [Dialect.rowList, Sql.text_append, Sql.text_append, Sql.text_commas, hsymbol]
    rfl
  rw [← hrows, ← hoperator, ← Sql.text_append, ← Sql.text_append]
  simp

/-- **Rows are introduced if they are uniform.** The comparison of a tuple with rows by `IN` has the
left operand, the operator and the rows in order, introduced as the dialect asks, if the rows of a
tuple are tuples, and also in a dialect without words in front of rows. A tuple with a list literal
among its rows is enclosed in parentheses only, which is another text wherever the dialect has such
words. Operands with the same rows are written alike if both are uniform, or both are not. -/
theorem rows_introduced_iff_uniform (hleft : left.isTuple) (hrows : right.IsRows rows) :
    ((compare left .isIn right).sql d = introducedSql d left rows ↔
      right.Uniform ∨ d.rowsIntroduction = [] ∨ ¬ ∃ sql, introducedSql d left rows = .ok sql) ∧
    (¬ right.Uniform → (compare left .isIn right).sql d = enclosedSql d left rows) ∧
    (∀ sql, introducedSql d left rows = .ok sql → ∃ leftSql pieces, left.sql d = .ok leftSql ∧
      List.Forall₂ (fun row piece => row.sql d = .ok piece) rows pieces ∧
      sql.text = leftSql.text ++ " IN " ++ d.rowListText (pieces.map Sql.text)) ∧
    (∀ texts, Dialect.sqlite.rowListText texts = "(VALUES " ++ ", ".intercalate texts ++ ")" ∧
      Dialect.mysql.rowListText texts = "(" ++ ", ".intercalate texts ++ ")") ∧
    ∀ right' rows', right'.IsRows rows' → rows'.map unfolded = rows.map unfolded →
      (right'.Uniform ↔ right.Uniform) →
      (compare left .isIn right').sql d = (compare left .isIn right).sql d := by
  have hsql (e : Expression) : (compare left .isIn e).sql d = compareSql d left .isIn e := rfl
  simp only [hsql]
  refine ⟨?_, fun huniform => compareSql_of_not_uniform hleft hrows huniform,
    fun sql h => text_of_introducedSql h, fun texts => ⟨?_, ?_⟩, ?_⟩
  · by_cases huniform : right.Uniform
    · simp [compareSql_of_uniform hleft hrows huniform, huniform]
    · rw [compareSql_of_not_uniform hleft hrows huniform, enclosedSql_eq_introducedSql_iff]
      simp [huniform]
  · have hopening : Dialect.sqlite.rowsOpening.text = "(VALUES " := by decide
    rw [Dialect.rowListText, hopening]
  · have hopening : Dialect.mysql.rowsOpening.text = "(" := by decide
    rw [Dialect.rowListText, hopening]
  · intro right' rows' hrows' hsame hiff
    by_cases huniform : right.Uniform
    · rw [compareSql_of_uniform hleft hrows huniform,
        compareSql_of_uniform hleft hrows' (hiff.mpr huniform)]
      exact rowsComparison_congr hsame
    · rw [compareSql_of_not_uniform hleft hrows huniform,
        compareSql_of_not_uniform hleft hrows' (mt hiff.mp huniform)]
      exact rowsComparison_congr hsame

/-- The same two rows, as a list of lists and as a tuple of tuples. -/
theorem rows_introduced_iff_uniform_two_ways :
    let column (name : String) : Expression :=
      .column ⟨.path ["foo"], "foo", { name, type := .string }⟩
    let left : Expression := .tuple [column "x", column "y"]
    let first : List Value := [.text "a", .integer 1]
    let second : List Value := [.text "b", .integer 2]
    let lists : Expression := .literal (.list [.list first, .list second])
    let tuples : Expression := .tuple [.tuple (first.map .literal), .tuple (second.map .literal)]
    (compare left .isIn lists).sql .sqlite = (compare left .isIn tuples).sql .sqlite ∧
      ∃ sql, (compare left .isIn tuples).sql .sqlite = .ok sql ∧
        sql.text = "(`foo`.`x`, `foo`.`y`) IN (VALUES ('a', 1), ('b', 2))" := by
  intro column left first second lists tuples
  have hlists : lists.IsRows [.literal (.list first), .literal (.list second)] :=
    ⟨rfl, List.cons_ne_nil _ _, by simp [items?]⟩
  have htuples : tuples.IsRows [.tuple (first.map .literal), .tuple (second.map .literal)] :=
    ⟨rfl, List.cons_ne_nil _ _, by simp [items?]⟩
  have huniform : tuples.Uniform := by
    simp [tuples, Uniform, isTuple]
  have hleft : left.isTuple := rfl
  obtain ⟨hintroduced, -, -, -, hsame⟩ :=
    rows_introduced_iff_uniform (d := .sqlite) hleft htuples
  refine ⟨hsame lists _ hlists rfl (iff_of_true trivial huniform), ?_⟩
  rw [hintroduced.mpr (.inl huniform)]
  exact ⟨_, rfl, by decide +kernel⟩

/-- A row that is a list literal among the rows of a tuple: nothing introduces them, although the
dialect has a word for it. -/
theorem mixed_rows_enclosed :
    let column (name : String) : Expression :=
      .column ⟨.path ["foo"], "foo", { name, type := .string }⟩
    let left : Expression := .tuple [column "x", column "y"]
    let first : Expression := .literal (.list [.text "a", .integer 1])
    let second : Expression := .tuple [.literal (.text "b"), .literal (.integer 2)]
    (Expression.tuple [first, second]).IsRows [first, second] ∧
      (((compare left .isIn (.tuple [first, second])).sql .sqlite).toOption.map Sql.text =
        some "(`foo`.`x`, `foo`.`y`) IN (('a', 1), ('b', 2))") ∧
      (introducedSql .sqlite left [first, second]).toOption.map Sql.text =
        some "(`foo`.`x`, `foo`.`y`) IN (VALUES ('a', 1), ('b', 2))" := by
  intro column left first second
  exact ⟨⟨rfl, List.cons_ne_nil _ _, by simp [first, second, items?]⟩, by decide +kernel,
    by decide +kernel⟩

end Predicate

end Discography
