import Discography.Filter.Predicate
import Discography.Proofs.Sql.Reals

/-!
# Reals in conditions

The text of a condition depends on the reals in its literals alone, at any depth. Behind `IN`, rows
are written before the tuple that stands in front of them, which makes no difference.

## Main definitions

* `Expression.reals`, `Predicate.reals`, `Predicate.optionalReals`: the reals in the literals of a
  condition

## Main results

* `Expression.decidedBy_sql`, `Predicate.decidedBy_sql`: expressions and predicates
* `Predicate.decidedBy_compareSql`: comparisons, with rows behind `IN` or without
-/

namespace Discography

/-! ### Expressions -/

namespace Expression

mutual

/-- The reals in the literals of an expression, from left to right. -/
def reals : Expression → List Binary64
  | literal v => v.reals
  | column _ => []
  | tuple items => itemsReals items

/-- The reals in the literals of the expressions of a list. -/
def itemsReals : List Expression → List Binary64
  | [] => []
  | e :: rest => e.reals ++ itemsReals rest

end

variable (d : Dialect)

mutual

theorem decidedBy_sql : ∀ e : Expression, DecidedBy e.reals (e.sql d)
  | literal v => v.decidedBy_sql d.style
  | column c => decidedBy_ok c.sql
  | tuple items => by
    rw [sql, reals]
    exact (decidedBy_itemsSql items).bind_pure _

theorem decidedBy_itemsSql : ∀ items : List Expression,
    DecidedBy (itemsReals items) (itemsSql d items)
  | [] => decidedBy_ok []
  | e :: rest => by
    rw [itemsSql, itemsReals]
    exact (decidedBy_sql e).bind fun first _ => (decidedBy_itemsSql rest).bind_pure (first :: ·)

end

/-- An expression is no list of rows, or all of it is written as rows. -/
theorem decidedBy_rowsSql (e : Expression) :
    e.rowsSql d = .ok none ∨ ∃ rows : Except NoLiteral (List Sql),
      e.rowsSql d = rows.map some ∧ DecidedBy e.reals rows := by
  cases e with
  | column c => exact .inl rfl
  | tuple items =>
    rw [rowsSql]
    split
    · exact .inr ⟨_, rfl, decidedBy_itemsSql d items⟩
    · exact .inl rfl
  | literal v =>
    cases v with
    | list items =>
      rw [rowsSql]
      split
      · exact .inr ⟨_, rfl, Value.decidedBy_itemsSql d.style items⟩
      · exact .inl rfl
    | _ => exact .inl rfl

end Expression

/-! ### Predicates -/

namespace Predicate

mutual

/-- The reals in the literals of a predicate, from left to right. -/
def reals : Predicate → List Binary64
  | literal _ => []
  | compare left _ right => left.reals ++ right.reals
  | chain first rest => first.reals ++ restReals rest

/-- The reals in the literals of the later components of a chain. -/
def restReals : List (Connective × Predicate) → List Binary64
  | [] => []
  | (_, p) :: rest => p.reals ++ restReals rest

end

/-- The reals of a predicate that may be absent. -/
def optionalReals (p : Option Predicate) : List Binary64 := p.elim [] reals

variable (d : Dialect)

theorem decidedBy_compareSql (left : Expression) (op : Operator) (right : Expression) :
    DecidedBy (left.reals ++ right.reals) (compareSql d left op right) := by
  have hleft := left.decidedBy_sql d
  have hright := right.decidedBy_sql d
  -- on the right of `IN` the rows are written before the tuple on the left
  have hswap : ∀ x, x ∈ right.reals ++ left.reals ↔ x ∈ left.reals ++ right.reals := by
    intro x
    rw [List.mem_append, List.mem_append, or_comm]
  rw [compareSql]
  split
  · rcases right.decidedBy_rowsSql d with hnone | ⟨rows, hrows, hdecided⟩
    · rw [hnone]
      exact (hright.bind fun _ _ => hleft.bind_pure _).of_mem_iff hswap
    · have hwritten : DecidedBy (right.reals ++ left.reals) (do
          let pieces ← rows
          return (← left.sql d) ++ .space :: op.sql ++ .space :: d.rowList pieces) :=
        hdecided.bind fun _ _ => hleft.bind_pure _
      rw [hrows]
      cases rows <;> exact hwritten.of_mem_iff hswap
  · exact hleft.bind fun _ _ => hright.bind_pure _

mutual

theorem decidedBy_sql : ∀ p : Predicate, DecidedBy p.reals (p.sql d)
  | literal b => decidedBy_ok _
  | compare left op right => decidedBy_compareSql d left op right
  | chain first rest => by
    rw [sql, reals]
    exact (decidedBy_sql first).bind fun _ _ => (decidedBy_restSql rest).bind_pure _

theorem decidedBy_restSql : ∀ rest : List (Connective × Predicate),
    DecidedBy (restReals rest) (restSql d rest)
  | [] => decidedBy_ok []
  | (_, p) :: rest => by
    rw [restSql, restReals]
    exact (decidedBy_sql p).bind fun _ _ => (decidedBy_restSql rest).bind_pure _

end

end Predicate

end Discography
