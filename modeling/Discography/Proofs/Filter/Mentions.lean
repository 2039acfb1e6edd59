import Discography.Filter.Condition
import Discography.Proofs.Filter.Meaning
import Discography.Proofs.Sql.Clauses

/-!
# Columns of conditions

The columns that stand in a condition. Its text mentions these columns and no others, and has no
clause or statement inside it.

## Main definitions

* `Expression.columns`, `Predicate.columns`, `Condition.columns`: the columns, at any depth

## Main results

* `Predicate.exists_isFragment`: what the text of a predicate mentions
* `Predicate.columns_extend`, `Predicate.columns_all`: the columns of combined predicates
-/

namespace Discography

open Token

/-- A column as statements name it. -/
def Column.mention (c : Column) : Mention := ⟨c.aliasName, c.name⟩

/-! ### Values and expressions -/

namespace Expression

mutual

/-- The columns in an expression. -/
def columns : Expression → List Column
  | literal _ => []
  | column c => [c]
  | tuple items => itemsColumns items

/-- The columns in each expression of a list. -/
def itemsColumns : List Expression → List Column
  | [] => []
  | e :: rest => e.columns ++ itemsColumns rest

end

theorem itemsColumns_eq_flatMap (items : List Expression) :
    itemsColumns items = items.flatMap columns := by
  induction items with
  | nil => rfl
  | cons e items ih => rw [itemsColumns, ih, List.flatMap_cons]

theorem itemsTokens_eq_map (items : List Expression) : itemsTokens items = items.map tokens := by
  induction items with
  | nil => rfl
  | cons e items ih => rw [itemsTokens, ih, List.map_cons]

end Expression

theorem Value.itemsTokens_eq_map (items : List Value) : itemsTokens items = items.map tokens := by
  induction items with
  | nil => rfl
  | cons v items ih => rw [itemsTokens, ih, List.map_cons]

/-- Values with commas between them mention nothing if none of them does. -/
theorem Value.exists_isFragment_commas {items : List Value}
    (h : ∀ v ∈ items, ∃ ts, IsFragment v.tokens ts []) :
    ∃ ts, IsFragment (commas (Value.itemsTokens items)) ts [] := by
  have hcommas := Token.exists_isFragment_commas h
  rwa [← itemsTokens_eq_map, List.flatMap_eq_nil_iff.mpr fun _ _ => rfl] at hcommas

mutual

/-- A value mentions nothing. -/
theorem Value.exists_isFragment : ∀ v : Value, ∃ ts, IsFragment v.tokens ts []
  | .null | .boolean _ | .integer _ | .real _ | .text _ | .blob _ =>
    ⟨_, isFragment_token ⟨nofun, nofun⟩ rfl nofun⟩
  | .list items => by
    obtain ⟨ts, hts⟩ := Value.exists_isFragment_commas (Value.exists_isFragment_items items)
    exact ⟨_, hts.parens⟩

theorem Value.exists_isFragment_items : ∀ items : List Value,
    ∀ v ∈ items, ∃ ts, IsFragment v.tokens ts []
  | [] => nofun
  | v :: rest => List.forall_mem_cons.mpr ⟨v.exists_isFragment, Value.exists_isFragment_items rest⟩

end

namespace Expression

theorem exists_isFragment_itemsTokens {items : List Expression}
    (h : ∀ e ∈ items, ∃ ts, IsFragment e.tokens ts (e.columns.map Column.mention)) :
    ∃ ts, IsFragment (commas (itemsTokens items)) ts
      ((itemsColumns items).map Column.mention) := by
  rw [itemsTokens_eq_map, itemsColumns_eq_flatMap, List.map_flatMap]
  exact exists_isFragment_commas h

mutual

/-- An expression mentions its columns. -/
theorem exists_isFragment : ∀ e : Expression,
    ∃ ts, IsFragment e.tokens ts (e.columns.map Column.mention)
  | literal v => v.exists_isFragment
  | column c => ⟨_, isFragment_column c.aliasName c.name⟩
  | tuple items => by
    obtain ⟨ts, hts⟩ := exists_isFragment_itemsTokens (exists_isFragment_items items)
    exact ⟨_, hts.parens⟩

theorem exists_isFragment_items : ∀ items : List Expression,
    ∀ e ∈ items, ∃ ts, IsFragment e.tokens ts (e.columns.map Column.mention)
  | [] => nofun
  | e :: rest => List.forall_mem_cons.mpr ⟨e.exists_isFragment, exists_isFragment_items rest⟩

end

/-- The rows of an expression mention what the expression does. -/
theorem exists_isFragment_rowsTokens {e : Expression} {rows : List (List Token)}
    (h : e.rowsTokens = some rows) :
    ∃ ts, IsFragment (commas rows) ts (e.columns.map Column.mention) := by
  cases e with
  | column c => cases h
  | tuple items =>
    obtain ⟨-, hrows⟩ := Option.ite_none_right_eq_some.mp h
    obtain rfl := Option.some.inj hrows
    exact exists_isFragment_itemsTokens (exists_isFragment_items items)
  | literal v =>
    cases v with
    | list items =>
      obtain ⟨-, hrows⟩ := Option.ite_none_right_eq_some.mp h
      obtain rfl := Option.some.inj hrows
      exact Value.exists_isFragment_commas (Value.exists_isFragment_items items)
    | _ => cases h

end Expression

/-! ### Predicates -/

theorem Operator.exists_isFragment (op : Operator) : ∃ ts, IsFragment op.tokens ts [] := by
  cases op with
  | eq | notEq => exact ⟨_, isFragment_token (by decide) rfl (by decide)⟩
  | isIn | is => exact ⟨_, isFragment_keyword (by decide)⟩
  | isNot => exact ⟨_, @isFragment_keywords ["IS", "NOT"] (by decide)⟩

/-- The words in front of rows begin no clause. -/
theorem Dialect.PlainRows.not_mem_clauseWords {d : Dialect} (hd : d.PlainRows) :
    ∀ w ∈ d.rowsIntroduction, w ∉ Nested.clauseWords := by
  rcases hd with hd | hd <;> rw [hd] <;> decide

namespace Predicate

mutual

/-- The columns in a predicate. -/
def columns : Predicate → List Column
  | literal _ => []
  | compare left _ right => left.columns ++ right.columns
  | chain first rest => first.columns ++ restColumns rest

/-- The columns in the later components of a chain. -/
def restColumns : List (Connective × Predicate) → List Column
  | [] => []
  | (_, p) :: rest => p.columns ++ restColumns rest

end

variable {d : Dialect}

theorem exists_isFragment_rightTokens (hd : d.PlainRows) (left : Expression) (op : Operator)
    (right : Expression) :
    ∃ ts, IsFragment (rightTokens d left op right) ts (right.columns.map Column.mention) := by
  rw [rightTokens]
  split
  · -- what is compared with `IN` may be written as rows
    cases hrows : right.rowsTokens with
    | none => exact right.exists_isFragment
    | some rows =>
      obtain ⟨ts, hts⟩ := Expression.exists_isFragment_rowsTokens hrows
      exact ⟨_, ((isFragment_keywords hd.not_mem_clauseWords).append hts).parens⟩
  · exact right.exists_isFragment

mutual

/-- A predicate mentions its columns. -/
theorem exists_isFragment (hd : d.PlainRows) : ∀ p : Predicate,
    ∃ ts, IsFragment (p.tokens d) ts (p.columns.map Column.mention)
  | literal b => (Value.boolean b).exists_isFragment
  | compare left op right => by
    obtain ⟨ls, hls⟩ := left.exists_isFragment
    obtain ⟨os, hos⟩ := op.exists_isFragment
    obtain ⟨rs, hrs⟩ := exists_isFragment_rightTokens hd left op right
    have happend := (hls.append hos).append hrs
    rw [List.append_nil, ← List.map_append] at happend
    exact ⟨_, happend⟩
  | chain first rest => by
    obtain ⟨fs, hfs⟩ := exists_isFragment hd first
    obtain ⟨rs, hrs⟩ := exists_isFragment_rest hd rest
    rw [tokens, columns, List.map_append]
    split
    · exact ⟨_, hfs.parens.append hrs⟩
    · exact ⟨_, hfs.append hrs⟩

theorem exists_isFragment_rest (hd : d.PlainRows) : ∀ rest : List (Connective × Predicate),
    ∃ ts, IsFragment (restTokens d rest) ts ((restColumns rest).map Column.mention)
  | [] => ⟨[], isFragment_nil⟩
  | (c, p) :: rest => by
    obtain ⟨ps, hps⟩ := exists_isFragment hd p
    obtain ⟨rs, hrs⟩ := exists_isFragment_rest hd rest
    have hword : c.keyword ∉ Nested.clauseWords := by cases c <;> decide
    rw [restColumns, List.map_append]
    exact ⟨_, ((isFragment_keyword hword).append hps.parens).append hrs⟩

end

theorem restColumns_append (rest more : List (Connective × Predicate)) :
    restColumns (rest ++ more) = restColumns rest ++ restColumns more := by
  induction rest with
  | nil => rfl
  | cons component rest ih => simp [restColumns, ih]

theorem columns_extend (c : Connective) (p q : Predicate) :
    (extend c p q).columns = p.columns ++ q.columns := by
  have hchain : (chain p [(c, q)]).columns = p.columns ++ q.columns := by
    simp [columns, restColumns]
  cases p with
  | literal b => exact hchain
  | compare left op right => exact hchain
  | chain first rest =>
    rw [extend]
    split
    · simp [columns, restColumns, restColumns_append]
    · exact hchain

theorem columns_foldl_and (p : Predicate) (ps : List Predicate) :
    (ps.foldl and p).columns = p.columns ++ ps.flatMap columns := by
  induction ps generalizing p with
  | nil => simp
  | cons q ps ih => simp [ih, and, columns_extend]

theorem columns_all {ps : List Predicate} {p : Predicate} (h : all ps = some p) :
    p.columns = ps.flatMap columns := by
  cases ps with
  | nil => cases h
  | cons first rest =>
    obtain rfl := Option.some.inj h
    exact columns_foldl_and first rest

end Predicate

/-! ### Conditions -/

namespace Entry

mutual

/-- The columns in the expressions of an entry. -/
def columns : Entry → List Column
  | .field _ value => value.columns
  | .table _ entries => entriesColumns entries

/-- The columns in the expressions of entries. -/
def entriesColumns : List Entry → List Column
  | [] => []
  | entry :: rest => entry.columns ++ entriesColumns rest

end

end Entry

/-- The columns that a caller writes into a condition. A pattern names the columns that it compares
without their tables, so it has columns in its expressions only, and none if these are literals. -/
def Condition.columns : Condition → List Column
  | .pattern entries => Entry.entriesColumns entries
  | .comparison left _ right => left.columns ++ right.columns
  | .predicate p => p.columns

end Discography
