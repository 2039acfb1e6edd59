import Discography.Filter.Expression
import Discography.Text.Blank

/-!
# Predicates

Conditions on rows: truth values, comparisons, and chains of predicates joined by `AND` and `OR`. A
chain grows at its end. As long as all its connectives agree it stays flat; otherwise what was there
before becomes the first component of a new chain, so that a chain is always read from the left.

In the text of a chain every component after the first stands in parentheses, and so does the first
if it is itself a chain.

## Main definitions

* `Operator`, `Connective`: the words of predicates
* `Predicate`: the type
* `Predicate.and`, `Predicate.or`: chains
* `Predicate.sql`: the lexemes of a predicate
-/

namespace Discography

/-- A comparison operator. -/
inductive Operator where
  | eq
  | notEq
  | isIn
  | is
  | isNot
  deriving DecidableEq

namespace Operator

/-- The keywords or the symbol of an operator. -/
def sql : Operator → Sql
  | eq => [.symbol "="]
  | notEq => [.symbol "<>"]
  | isIn => [.word "IN"]
  | is => [.word "IS"]
  | isNot => Sql.words ["IS", "NOT"]

/-- The name of an operator in diagnostic output. -/
def name : Operator → String
  | eq => "Eq"
  | notEq => "NotEq"
  | isIn => "In"
  | is => "Is"
  | isNot => "IsNot"

/-- The operator that a text names, up to blanks around it. -/
def parse (text : String) : Result Operator :=
  let body := String.ofList (Text.trim text.toList)
  match [eq, notEq, isIn, is, isNot].find? fun op => op.sql.text = body with
  | some op => .ok op
  | none => .error (.misuse (.unknownOperator body))

end Operator

/-- A connective between predicates. -/
inductive Connective where
  | and
  | or
  deriving DecidableEq

/-- The keyword of a connective. -/
def Connective.keyword : Connective → String
  | and => "AND"
  | or => "OR"

/-- A condition on rows. -/
inductive Predicate where
  | literal (b : Bool)
  | compare (left : Expression) (op : Operator) (right : Expression)
  /-- A chain of at least one component, each later one with the connective before it. -/
  | chain (first : Predicate) (rest : List (Connective × Predicate))

namespace Predicate

/-- The comparison of two expressions by the operator that a text names. -/
def comparing (left : Expression) (op : String) (right : Expression) : Result Predicate :=
  (Operator.parse op).map fun op => compare left op right

/-- The chain of two predicates. A chain whose connectives are all `c` takes the second predicate as
its last component. -/
def extend (c : Connective) (p q : Predicate) : Predicate :=
  match p with
  | chain first rest =>
    if rest.all (·.1 = c) then chain first (rest ++ [(c, q)]) else chain p [(c, q)]
  | p => chain p [(c, q)]

/-- Both predicates hold. -/
def and (p q : Predicate) : Predicate := extend .and p q

/-- One of the predicates holds. -/
def or (p q : Predicate) : Predicate := extend .or p q

/-- All predicates of a list hold; none if the list is empty. -/
def all : List Predicate → Option Predicate
  | [] => none
  | p :: rest => some (rest.foldl and p)

/-- The lexemes of a comparison. Rows on the right of `IN` after a tuple are introduced as the
dialect asks. -/
def compareSql (d : Dialect) (left : Expression) (op : Operator) (right : Expression) :
    Except NoLiteral Sql :=
  if op = .isIn && left.isTuple then do
    let rightSql ← match ← right.rowsSql d with
      | some rows => pure (d.rowList rows)
      | none => right.sql d
    return (← left.sql d) ++ .space :: op.sql ++ .space :: rightSql
  else do
    let leftSql ← left.sql d
    return leftSql ++ .space :: op.sql ++ .space :: (← right.sql d)

/-- Whether a predicate is a chain. -/
def isChain : Predicate → Bool
  | chain _ _ => true
  | _ => false

mutual

/-- The lexemes of a predicate. -/
def sql (d : Dialect) : Predicate → Except NoLiteral Sql
  | literal b => (Value.boolean b).sql d.style
  | compare left op right => compareSql d left op right
  | chain first rest => do
    let firstSql ← sql d first
    return (if first.isChain then Sql.parens firstSql else firstSql) ++ (← restSql d rest)

/-- The lexemes of the later components of a chain. -/
def restSql (d : Dialect) : List (Connective × Predicate) → Except NoLiteral Sql
  | [] => .ok []
  | (c, p) :: rest => do
    let componentSql ← sql d p
    return .space :: .word c.keyword :: .space :: Sql.parens componentSql ++ (← restSql d rest)

end

end Predicate

end Discography
