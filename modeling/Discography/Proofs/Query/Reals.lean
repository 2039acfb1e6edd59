import Discography.Proofs.Filter.Reals
import Discography.Proofs.Sql.Literals
import Discography.Query.Mutation

/-!
# Reals in statements

The text of a statement depends on the reals in its literals alone: those in the conditions of its
joins and in its filter, and those in the values that it assigns. Names, order and limits of a query
are always written.

## Main definitions

* `Query.conditionReals`, `Query.filterReals`: the reals in the conditions of a query
* `Command.reals`, `Assignments.reals`: the reals in a change of a table

## Main results

* `Query.decidedBy_sourceSql`: the clauses that all statements of a query have in common
* `Query.decidedBy_selectSql`, `Query.decidedBy_countSql`, `Command.decidedBy_sql`: statements
-/

namespace Discography

/-! ### Queries -/

/-- The reals in the condition of a join. -/
def Join.reals (j : Join) : List Binary64 := Predicate.optionalReals j.condition

namespace Query

/-- The reals in the filter of a query. -/
def filterReals (q : Query) : List Binary64 := Predicate.optionalReals q.filter

/-- The reals in the conditions of the joins and in the filter of a query. -/
def conditionReals (q : Query) : List Binary64 := q.joins.flatMap Join.reals ++ q.filterReals

variable (d : Dialect)

theorem decidedBy_joinSql (j : Join) : DecidedBy j.reals (joinSql d j) := by
  rw [joinSql, Join.reals]
  refine DecidedBy.bind_pure ?_ _
  cases j.condition with
  | none => exact Predicate.decidedBy_sql d (.literal true)
  | some p => exact p.decidedBy_sql d

theorem decidedBy_joinsSql (joins : List Join) :
    DecidedBy (joins.flatMap Join.reals) (joinsSql d joins) := by
  induction joins with
  | nil => exact decidedBy_ok []
  | cons j joins ih =>
    rw [joinsSql, List.flatMap_cons]
    exact (decidedBy_joinSql d j).bind fun _ _ => ih.bind_pure _

theorem decidedBy_filterSql (filter : Option Predicate) :
    DecidedBy (Predicate.optionalReals filter) (filterSql d filter) := by
  cases filter with
  | none => exact decidedBy_ok []
  | some p => exact (p.decidedBy_sql d).bind_pure _

variable (q : Query)

/-- The clauses that all statements of a query have in common hold all literals of the query. -/
theorem decidedBy_sourceSql : DecidedBy q.conditionReals q.sourceSql :=
  (decidedBy_joinsSql q.dialect q.joins).bind fun _ _ =>
    (decidedBy_filterSql q.dialect q.filter).bind_pure _

theorem decidedBy_selectSql : DecidedBy q.conditionReals q.selectSql :=
  q.decidedBy_sourceSql.bind_pure _

theorem decidedBy_countSql : DecidedBy q.conditionReals q.countSql :=
  q.decidedBy_sourceSql.bind_pure _

end Query

/-! ### Changes -/

/-- The reals in the values that are assigned. -/
def Assignments.reals (a : Assignments) : List Binary64 := a.entries.flatMap fun e => e.2.reals

theorem Assignments.isFinite_of_mem_reals {a : Assignments} (h : ∀ e ∈ a.entries, e.2.IsFinite) :
    ∀ x ∈ a.reals, x.isFinite := by
  intro x hx
  obtain ⟨e, he, hmem⟩ := List.mem_flatMap.mp hx
  exact e.2.isFinite_iff_reals.mp (h e he) x hmem

namespace Command

/-- The reals in a cell of an inserted row. -/
def cellReals (cell : Option Value) : List Binary64 := cell.elim [] Value.reals

/-- The reals in the literals of a command. -/
def reals : Command → List Binary64
  | insert _ _ rows => rows.flatMap fun cells => cells.flatMap cellReals
  | update _ assignments filter => assignments.reals ++ Predicate.optionalReals filter
  | delete _ filter => Predicate.optionalReals filter
  | insertDefaults _ | truncate _ => []

theorem decidedBy_cellSql (style : TextStyle) (cell : Option Value) :
    DecidedBy (cellReals cell) (cellSql style cell) := by
  cases cell with
  | none => exact decidedBy_ok _
  | some v => exact v.decidedBy_sql style

variable (d : Dialect)

theorem decidedBy_sql (command : Command) : DecidedBy command.reals (command.sql d) := by
  cases command with
  | insert target columns rows =>
    refine (decidedBy_mapM fun cells _ => ?_).bind_pure _
    exact (decidedBy_mapM fun cell _ => decidedBy_cellSql d.style cell).bind_pure _
  | insertDefaults target | truncate target => exact decidedBy_ok _
  | update target assignments filter =>
    refine (decidedBy_mapM fun e _ => ?_).bind fun _ _ =>
      (Query.decidedBy_filterSql d filter).bind_pure _
    exact (e.2.decidedBy_sql d.style).bind_pure _
  | delete target filter => exact (Query.decidedBy_filterSql d filter).bind_pure _

end Command

end Discography
