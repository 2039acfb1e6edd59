import Discography.Proofs.Query.RowStatement
import Discography.Proofs.Query.StatementClauses

/-!
# Selections as a database reads them

What a database takes a `SELECT` statement for whose rows come from one table, without a condition:
which columns it asks for, by which columns the rows are sorted, and which part of the sorted rows
is left. The clauses come one after the other, so each is read from the front of those that are
left.

## Main definitions

* `Selection`, `SortKey`: what is read
* `Selection.read`: the selection of a text
* `Query.Selects`: the query is a selection from one table
* `Query.selection`: the selection that it is

## Main results

* `Query.items?_commas`: a list is read entry by entry
* `Query.Selects.read_select`: the text of a query is read as the selection that it is
-/

namespace Discography

open Token Nested

/-- A column that rows are sorted by. -/
structure SortKey where
  column : String
  descending : Bool
  deriving DecidableEq

/-- A statement that selects rows of one table, as it is read. -/
structure Selection where
  /-- The name of the table. -/
  target : List Token
  columns : List String
  /-- The keys that rows are sorted by, the most significant one first. -/
  keys : List SortKey
  /-- The number of rows; all rows if there is none. -/
  limit : Option Nat
  /-- The number of rows in front that are left out. -/
  offset : Nat

namespace Nested

/-- The column that trees name, if they name one of the given table. -/
def column? (scope : Option Token) : List Nested → Option String
  | [.token t, .token (.punctuation "."), .token (.name column)] =>
    if some t = scope then some column else none
  | _ => none

/-- The column of an entry of a `SELECT` list, whatever it is called in the result. -/
def selected? (scope : Option Token) : List Nested → Option String
  | [t, dot, column, .token (.keyword "AS"), .token (.name _)] => column? scope [t, dot, column]
  | ts => column? scope ts

/-- The key that trees are. Rows are sorted in ascending order unless it says otherwise. -/
def sortKey? (scope : Option Token) : List Nested → Option SortKey
  | [t, dot, column, .token (.keyword "ASC")] =>
    (column? scope [t, dot, column]).map fun column => ⟨column, false⟩
  | [t, dot, column, .token (.keyword "DESC")] =>
    (column? scope [t, dot, column]).map fun column => ⟨column, true⟩
  | ts => (column? scope ts).map fun column => ⟨column, false⟩

/-- What the groups of trees between commas are. -/
def items? {α : Type} (item? : List Nested → Option α) (ts : List Nested) : Option (List α) :=
  (splitCommas (ts.map fun t => (t, ()))).mapM fun group => item? (group.map Prod.fst)

end Nested

namespace Selection

/-- Reads the keys of an order, if there is one, and leaves the clauses behind it. -/
def keysOf (scope : Option Token) : List Clause → Option (List SortKey × List Clause)
  | ⟨"ORDER", []⟩ :: ⟨"BY", body⟩ :: rest =>
    (items? (sortKey? scope) body).map fun keys => (keys, rest)
  | rest => some ([], rest)

/-- Reads the clause with a number, if it is there, and leaves the clauses behind it. -/
def numberOf (word : String) : List Clause → Option (Option Nat × List Clause)
  | [] => some (none, [])
  | c :: rest =>
    if c.word = word then
      match c.body with
      | [.token (.integer (.ofNat n))] => some (some n, rest)
      | _ => none
    else some (none, c :: rest)

/-- Reads the clauses of a statement. -/
def ofClauses : List Clause → Option Selection
  | ⟨"SELECT", columns⟩ :: ⟨"FROM", table⟩ :: rest => do
    let (target, scope) ← RowStatement.tableOf table
    let columns ← items? (selected? scope) columns
    let (keys, rest) ← keysOf scope rest
    let (limit, rest) ← numberOf "LIMIT" rest
    let (offset, rest) ← numberOf "OFFSET" rest
    if rest.isEmpty then return ⟨target, columns, keys, limit, offset.getD 0⟩ else none
  | _ => none

/-- The statement of a text. -/
def read (d : Dialect) (text : String) : Option Selection :=
  (Nested.ofText d.style text).bind fun ts =>
    if isStatement ts then ofClauses (clauses ts) else none

end Selection

/-! ### Lists -/

/-- What stands between commas is read one by one. -/
theorem Nested.items?_commas {α : Type} {item? : List Nested → Option α}
    {groups : List (List Nested)} (hne : groups ≠ [])
    (hgroups : ∀ ts ∈ groups, ∀ t ∈ ts, t.isToken (punctuation ",") = false) :
    items? item? (Nested.commas groups) = groups.mapM item? := by
  obtain ⟨group, rest, rfl⟩ := List.exists_cons_of_ne_nil hne
  rw [items?, splitCommas_map_commas _ _ _ hgroups, List.mapM_map]
  simp [Function.comp_def]

theorem mapM_map_eq_some {α β γ : Type} {f : β → Option γ} {g : α → β} {h : α → γ}
    {items : List α} (hitems : ∀ a ∈ items, f (g a) = some (h a)) :
    (items.map g).mapM f = some (items.map h) := by
  induction items with
  | nil => rfl
  | cons a items ih =>
    obtain ⟨ha, hrest⟩ := List.forall_mem_cons.mp hitems
    rw [List.map_cons, List.mapM_cons, ha, ih hrest]
    rfl

/-- The tokens of a column are read as the column. -/
theorem Column.column?_tokens (c : Column) :
    Nested.column? (some (.name c.aliasName)) (c.tokens.map .token) = some c.name :=
  if_pos rfl

namespace Query

/-- Tokens are an entry of a list: they are read, and no comma ends them before. -/
def IsEntry {α : Type} (item? : List Nested → Option α) (tokens : List Token) (a : α) : Prop :=
  item? (tokens.map .token) = some a ∧
    ∀ t ∈ tokens.map Nested.token, t.isToken (punctuation ",") = false

theorem isEntry_leafTokens (leaf : List String × Column) :
    IsEntry (selected? (some (.name leaf.2.aliasName))) (leafTokens leaf) leaf.2.name := by
  have hcolumn := leaf.2.column?_tokens
  rw [leafTokens]
  cases leaf.1.getLast? with
  | none => exact ⟨hcolumn, by simp [Column.tokens, Token.path, isToken]⟩
  | some key => exact ⟨hcolumn, by simp [Column.tokens, Token.path, isToken]⟩

theorem isEntry_orderTokens (c : Column) (direction : Option Direction) :
    IsEntry (sortKey? (some (.name c.aliasName))) (OrderTerm.tokens ⟨.column c, direction⟩)
      ⟨c.name, direction = some .descending⟩ := by
  have hcolumn := congrArg (Option.map fun column =>
    SortKey.mk column (direction = some .descending)) c.column?_tokens
  rcases direction with _ | _ | _
  all_goals exact ⟨hcolumn, by simp [OrderTerm.tokens, Column.tokens, Token.path, isToken]⟩

/-- A list is read entry by entry. -/
theorem items?_commas {α β : Type} {item? : List Nested → Option β} {tokens : α → List Token}
    {value : α → β} {entries : List α} (hne : entries ≠ [])
    (h : ∀ a ∈ entries, IsEntry item? (tokens a) (value a)) :
    items? item? (Nested.commas (entries.map fun a => (tokens a).map .token)) =
      some (entries.map value) := by
  rw [Nested.items?_commas (by simpa using hne)]
  · exact mapM_map_eq_some fun a ha => (h a ha).1
  · exact List.forall_mem_map.mpr fun a ha => (h a ha).2

/-! ### Queries of one table -/

/-- The query has one table and no conditions, sorts the rows by columns of the table, and leaves
out rows only if it limits their number. -/
structure Selects (q : Query) (segments : List String) (order : List (Column × Option Direction)) :
    Prop where
  origin : q.primary.origin = .path segments
  joins : q.joins = []
  filter : q.filter = none
  ne : q.effectiveProjection.leaves ≠ []
  columns : ∀ leaf ∈ q.effectiveProjection.leaves, leaf.2.aliasName = q.primary.aliasName
  sorted : q.order = order.map fun k => ⟨.column k.1, k.2⟩
  keys : ∀ k ∈ order, k.1.aliasName = q.primary.aliasName
  limited : q.offset.isSome → q.limit.isSome

/-- The selection that a query of one table is. -/
def selection (q : Query) (segments : List String) (order : List (Column × Option Direction)) :
    Selection where
  target := path segments
  columns := q.effectiveProjection.leaves.map (·.2.name)
  keys := order.map fun k => ⟨k.1.name, k.2 = some .descending⟩
  limit := q.limit.map UInt64.toNat
  offset := q.offset.elim 0 UInt64.toNat

variable {q : Query} {segments : List String} {order : List (Column × Option Direction)}

namespace Selects

theorem keysOf_orderClauses (h : q.Selects segments order) {rest : List Clause}
    (hrest : ∀ c ∈ rest.head?, c.word ≠ "ORDER") :
    Selection.keysOf (some (.name q.primary.aliasName)) (q.orderClauses ++ rest) =
      some ((q.selection segments order).keys, rest) := by
  have hkeys : ∀ k ∈ order, IsEntry (sortKey? (some (.name q.primary.aliasName)))
      (OrderTerm.tokens ⟨.column k.1, k.2⟩) ⟨k.1.name, k.2 = some .descending⟩ := by
    intro k hk
    rw [← h.keys k hk]
    exact isEntry_orderTokens k.1 k.2
  rw [orderClauses, h.sorted, selection, List.map_map]
  by_cases hne : order = []
  · -- without an order, the clauses behind it must not be taken for one
    subst hne
    change Selection.keysOf _ rest = _
    unfold Selection.keysOf
    split
    · exact absurd rfl (hrest _ rfl)
    · rfl
  · rw [if_neg (by simpa using hne)]
    change (items? _ (Nested.commas (order.map fun k =>
      (OrderTerm.tokens ⟨.column k.1, k.2⟩).map .token))).map _ = _
    rw [items?_commas hne hkeys]
    rfl

theorem numberOf_limitClauses (h : q.Selects segments order) :
    ∃ rest, Selection.numberOf "LIMIT" q.limitClauses = some (q.limit.map UInt64.toNat, rest) ∧
      ∃ n : Option Nat, Selection.numberOf "OFFSET" rest = some (n, []) ∧
        n.getD 0 = q.offset.elim 0 UInt64.toNat := by
  rw [limitClauses, writtenLimit]
  have hlimited := h.limited
  cases hlimit : q.limit with
  | none =>
    have hoffset : q.offset = none := by simpa [hlimit] using hlimited
    rw [hoffset]
    exact ⟨[], rfl, none, rfl, rfl⟩
  | some limit =>
    cases q.offset with
    | none => exact ⟨[], rfl, none, rfl, rfl⟩
    | some offset => exact ⟨_, rfl, some offset.toNat, rfl, rfl⟩

theorem ofClauses_eq (h : q.Selects segments order) {table : List Nested}
    (htable : RowStatement.NamesTable table segments q.primary.aliasName) :
    Selection.ofClauses (q.selectClause :: [⟨"FROM", table⟩] ++
      (q.orderClauses ++ q.limitClauses)) = some (q.selection segments order) := by
  have hcolumns : ∀ leaf ∈ q.effectiveProjection.leaves,
      IsEntry (selected? (some (.name q.primary.aliasName))) (leafTokens leaf) leaf.2.name := by
    intro leaf hleaf
    rw [← h.columns leaf hleaf]
    exact isEntry_leafTokens leaf
  obtain ⟨rest, hlimit, n, hoffset, hn⟩ := h.numberOf_limitClauses
  have hhead : ∀ c ∈ q.limitClauses.head?, c.word ≠ "ORDER" := by
    rw [limitClauses]
    cases q.writtenLimit <;> cases q.offset <;> simp
  rw [selectClause, List.cons_append, List.singleton_append, Selection.ofClauses, htable.tableOf,
    Option.bind_eq_bind, Option.bind_some]
  simp only [items?_commas h.ne hcolumns, h.keysOf_orderClauses hhead, hlimit, hoffset, hn,
    Option.bind_eq_bind, Option.bind_some]
  rfl

/-- A query of one table is read as the selection that it is. -/
theorem read_select (h : q.Selects segments order) (hd : q.dialect.Lexical) {sql : Sql}
    (hsql : q.selectSql = .ok sql) :
    Selection.read q.dialect sql.text = some (q.selection segments order) := by
  have hsound : q.Sound := by
    refine ⟨hd, fun t ht => ?_⟩
    rw [tables, h.joins, List.map_nil, List.mem_singleton] at ht
    rw [ht, h.origin]
    trivial
  have hplain : q.primary.origin.Plain fun _ => True := h.origin ▸ Origin.plain_path segments
  obtain ⟨table, htable, hfrom⟩ := Table.exists_hasClauses hplain "FROM" (by decide)
  have hsource : HasClauses (fun _ => True) q.sourceTokens (.token (keyword "FROM") :: table)
      [⟨"FROM", table⟩] := by
    rw [sourceTokens, h.joins, h.filter]
    simpa [filterTokens] using hfrom
  obtain ⟨ts, hselect⟩ := exists_hasClauses_selectTokens hsource
  have hnames : RowStatement.NamesTable table segments q.primary.aliasName := by
    obtain ⟨table', htable', hnames⟩ := Table.exists_nests_sourceTokens h.origin
    obtain rfl : table = table' :=
      Option.some.inj (htable.ofTokens_eq.symm.trans htable'.ofTokens_eq)
    exact hnames
  rw [Selection.read, hselect.ofText_eq (writes_selectSql hsound hsql), Option.bind_some,
    hselect.clauses_eq]
  exact h.ofClauses_eq hnames

end Selects

end Query

end Discography
