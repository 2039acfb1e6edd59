import Discography.Schema.Table

/-!
# Expressions

The operands of comparisons: literals, columns, and tuples of expressions. On the right of `IN`, a
tuple of tuples and a list of lists are rows, which every dialect introduces in its own way.

## Main definitions

* `Expression`: the type
* `Expression.sql`: the lexemes of an expression
* `Expression.rowsSql`: the lexemes of the rows of an expression that consists of rows
-/

namespace Discography

/-- An operand of a comparison. -/
inductive Expression where
  | literal (v : Value)
  | column (c : Column)
  | tuple (items : List Expression)

namespace Expression

mutual

/-- The lexemes of an expression. -/
def sql (d : Dialect) : Expression → Except NoLiteral Sql
  | literal v => v.sql d.style
  | column c => .ok c.sql
  | tuple items => do return Sql.parens (Sql.commas (← itemsSql d items))

/-- The lexemes of each expression of a list. -/
def itemsSql (d : Dialect) : List Expression → Except NoLiteral (List Sql)
  | [] => .ok []
  | e :: rest => do
    let first ← sql d e
    return first :: (← itemsSql d rest)

end

/-- Whether an expression is a tuple. -/
def isTuple : Expression → Bool
  | tuple _ => true
  | _ => false

/-- Whether a value is a list. -/
def isList : Value → Bool
  | .list _ => true
  | _ => false

/-- The rows of an expression: the items of a tuple of tuples or of a list of lists, of which there
is at least one. -/
def rowsSql (d : Dialect) : Expression → Except NoLiteral (Option (List Sql))
  | tuple items =>
    if !items.isEmpty && items.all isTuple then (itemsSql d items).map some else .ok none
  | literal (.list items) =>
    if !items.isEmpty && items.all isList then (Value.itemsSql d.style items).map some
    else .ok none
  | _ => .ok none

end Expression

end Discography
