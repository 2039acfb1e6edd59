import Discography.Proofs.Database.Store
import Discography.Proofs.Query.RowStatement

/-!
# Servers

A server keeps a store and runs what it reads: insertions, and statements that count, delete or
update the rows of one table. A transaction works on a store of its own, which a commit makes the
one that is kept.

## Main definitions

* `Store.execute`, `Store.query`: what a text does to a store
* `Server`, `Server.host`: the host that keeps a store

## Main results

* `Store.execute_of_insertion`, `Store.execute_of_rowStatement`, `Store.query_of_rowStatement`: what
  is done for what is read
-/

namespace Discography

/-! ### Comparisons -/

/-- The cell of an operand in a row: that of a column, or a literal. -/
def Tuple.operand (scope : Option Token) (row : Tuple) : List Token → Option Cell
  | [.name column] => some (row column)
  | [t, .punctuation ".", .name column] => if some t = scope then some (row column) else none
  | [t] => (Nested.valueOfToken t).map Value.stored
  | _ => none

/-- The truth value of a comparison of two operands. Nothing is equal to null, or different from it;
of the other comparisons nothing is known. -/
def Comparison.truth (scope : Option Token) (row : Tuple) (c : Comparison) : Truth :=
  match row.operand scope c.left, row.operand scope c.right with
  | some x, some y =>
    if x = .null ∨ y = .null then .unknown
    else match c.op with
      | .eq => .ofBool (decide (x = y))
      | .notEq => .ofBool (decide (x ≠ y))
      | .isIn | .is | .isNot => .unknown
  | _, _ => .unknown

/-! ### Statements -/

namespace Store

variable {schema : List Relation}

/-- The relation of a name in the statement of a text. -/
def relation? (schema : List Relation) (target : List Token) : Option Relation :=
  schema.find? fun r => r.table.origin.tokens = target

/-- Runs a statement about rows. -/
def runRows (s : Store schema) (q : RowStatement) : Except HostError (Outcome × Store schema) :=
  match relation? schema q.target with
  | none => .error (.databaseError "no such table")
  | some r =>
    match q.treatment with
    | .count => .error (.databaseError "no statement")
    | .delete => s.delete r.name (q.selects Comparison.truth)
    | .update assignments =>
      s.update r.name (q.selects Comparison.truth)
        (assignments.map fun e => (e.1, e.2.stored))

/-- Runs an insertion. -/
def runInsertion (s : Store schema) (i : Insertion) : Except HostError (Outcome × Store schema) :=
  match relation? schema i.target with
  | none => .error (.databaseError "no such table")
  | some r => s.insert r.name (i.rows.map r.tuple)

/-- Runs the statement of a text. -/
def execute (d : Dialect) (s : Store schema) (text : String) :
    Except HostError (Outcome × Store schema) :=
  match RowStatement.read d text with
  | some q => s.runRows q
  | none =>
    match Insertion.read d text with
    | some i => s.runInsertion i
    | none => .error (.databaseError "syntax error")

/-- Answers the query of a text. Only rows of one table can be counted. -/
def query (d : Dialect) (s : Store schema) (text : String) : Except HostError (List Row) :=
  match RowStatement.read d text with
  | some ⟨.count, target, scope, condition⟩ =>
    match relation? schema target with
    | none => .error (.databaseError "no such table")
    | some r =>
      let rows := RowStatement.selected Comparison.truth ⟨.count, target, scope, condition⟩
        (s.contents r.name)
      .ok [[.integer (Int64.ofNat rows.length)]]
  | _ => .error (.databaseError "no query")

end Store

/-! ### Servers -/

/-- A server with a clock and a random source. -/
structure Server (schema : List Relation) (ι : Type) where
  /-- What is kept. -/
  store : Store schema
  /-- What the transaction works on. -/
  working : Store schema
  source : ι

namespace Server

variable {schema : List Relation} {ι α : Type}

/-- The result of a change, made to one of the stores of a server. -/
def settle (s : Server schema ι) (put : Store schema → Server schema ι) :
    Except HostError (Outcome × Store schema) → Except HostError Outcome × Server schema ι
  | .ok (outcome, store) => (.ok outcome, put store)
  | .error failure => (.error failure, s)

/-- The host that keeps a store. Transactions are not nested. -/
def host (schema : List Relation) (d : Dialect) (ids : Identifier.Source ι Error) :
    Host (Server schema ι) where
  answer
    | ⟨false, .execute text⟩, s => s.settle ({ s with store := · }) (s.store.execute d text)
    | ⟨true, .execute text⟩, s => s.settle ({ s with working := · }) (s.working.execute d text)
    | ⟨false, .query text⟩, s => (s.store.query d text, s)
    | ⟨true, .query text⟩, s => (s.working.query d text, s)
    | ⟨false, .start⟩, s => (.ok (), { s with working := s.store })
    | ⟨true, .start⟩, s => (.error (.notAvailable "nested transaction"), s)
    | ⟨true, .commit⟩, s => (.ok (), { s with store := s.working })
    | ⟨true, .rollback⟩, s => (.ok (), s)
    | ⟨false, .commit⟩, s | ⟨false, .rollback⟩, s => (.error .transactionClosed, s)
  ids :=
    { now := fun s => ((ids.now s.source).1, { s with source := (ids.now s.source).2 })
      noise := fun s => ((ids.noise s.source).1, { s with source := (ids.noise s.source).2 }) }

end Server

/-! ### What is done for what is read -/

/-- No text is both. -/
theorem RowStatement.read_eq_none_of_insertion {d : Dialect} {text : String} {i : Insertion}
    (h : Insertion.read d text = some i) : read d text = none := by
  obtain ⟨h, -⟩ := Option.filter_eq_some_iff.1 h
  obtain ⟨trees, htrees, hi⟩ := Option.bind_eq_some_iff.1 h
  rw [read, htrees, Option.bind_some]
  unfold Insertion.ofNested at hi
  split at hi
  · rfl
  · cases hi

namespace Store

variable {schema : List Relation} {d : Dialect} {s : Store schema} {text : String}

theorem execute_of_insertion {i : Insertion} {r : Relation} (hread : Insertion.read d text = some i)
    (hr : relation? schema i.target = some r) :
    s.execute d text = s.insert r.name (i.rows.map r.tuple) := by
  rw [execute, RowStatement.read_eq_none_of_insertion hread]
  simp only [hread, runInsertion, hr]

theorem execute_of_rowStatement {q : RowStatement} (hread : RowStatement.read d text = some q) :
    s.execute d text = s.runRows q := by
  rw [execute, hread]

theorem query_of_rowStatement {target : List Token} {scope : Option Token}
    {condition : Option Formula} {r : Relation}
    (hread : RowStatement.read d text = some ⟨.count, target, scope, condition⟩)
    (hr : relation? schema target = some r) :
    s.query d text = .ok [[.integer (Int64.ofNat (RowStatement.selected Comparison.truth
      ⟨.count, target, scope, condition⟩ (s.contents r.name)).length)]] := by
  rw [query, hread]
  simp only [hr]

end Store

end Discography
