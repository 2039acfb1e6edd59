import Discography.Filter.Predicate

/-!
# Conditions

What a caller hands to a query as a filter or as the condition of a join. A condition is resolved
against the tables in scope. A pattern lists columns with the expressions they have to equal; within
an entry for a table, names are looked up in that table alone, and elsewhere in all tables in scope,
of which one only may have the column.

## Main definitions

* `Pattern`: columns and the expressions they have to equal
* `Condition`: patterns, comparisons and predicates
* `Condition.resolve`: the predicate of a condition
-/

namespace Discography

/-- An entry of a pattern. -/
inductive Entry where
  /-- The column has to equal the expression. -/
  | field (name : String) (value : Expression)
  /-- The entries are about the table with the alias. -/
  | table (aliasName : String) (entries : List Entry)

/-- Columns and the expressions they have to equal. -/
abbrev Pattern := List Entry

/-- The column of a name: of the only table in scope, or of the only one in scope that has it. -/
def resolveColumn (scope : List Table) (name : String) : Result Column :=
  match scope with
  | [t] => t.column name
  | scope =>
    match scope.filterMap (·.column? name) with
    | [c] => .ok c
    | [] => .error (.misuse (.noColumnInScope name))
    | _ => .error (.misuse (.ambiguousColumn name))

namespace Pattern

mutual

/-- The comparisons of one entry. -/
def entryComparisons (scope : List Table) : Entry → Result (List Predicate)
  | .field name value => do
    return [.compare (.column (← resolveColumn scope name)) .eq value]
  | .table aliasName entries =>
    match scope.find? (·.aliasName = aliasName) with
    | some t => comparisons [t] entries
    | none => .error (.misuse (.noTableInScope aliasName))

/-- The comparisons of a pattern, in the order of its fields. -/
def comparisons (scope : List Table) : List Entry → Result (List Predicate)
  | [] => .ok []
  | entry :: rest => do
    let first ← entryComparisons scope entry
    return first ++ (← comparisons scope rest)

end

end Pattern

/-- A condition of a caller. -/
inductive Condition where
  | pattern (entries : Pattern)
  | comparison (left : Expression) (op : String) (right : Expression)
  | predicate (p : Predicate)

namespace Condition

/-- The predicate of a condition; none if it does not restrict anything. -/
def resolve (scope : List Table) : Condition → Result (Option Predicate)
  | pattern entries => (Pattern.comparisons scope entries).map Predicate.all
  | comparison left op right => (Predicate.comparing left op right).map some
  | predicate p => .ok (some p)

end Condition

end Discography
