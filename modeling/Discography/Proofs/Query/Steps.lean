import Discography.Proofs.Outcome
import Discography.Query.Render

/-!
# What the operations on a query do

For every operation, when it is accepted and what it changes or returns then. All that is
shown about the queries that a list of operations leads to rests on these statements.

## Main results

* `Query.restrict_eq_ok`, `Query.joinOn_eq_ok`, `Query.extendPredicate_eq_ok`: conditions
* `Query.join_eq_ok`: joins
* `Query.select_eq_ok`, `Query.orderBy_eq_ok`, `Query.thenBy_eq_ok`, `Query.take_eq_ok`,
  `Query.skip_eq_ok`, `Query.paginate_eq_ok`: projection, order and limits
* `Query.render_eq_ok`, `Query.renderCount_eq_ok`, `Query.asTable_eq_ok`: statements
* `Query.run_nil`, `Query.run_cons`, `Query.run_append`: lists of operations
-/

namespace Discography.Query

variable {q r : Query}

theorem ensureNotJoining_eq_ok {op : Operation} {u : Unit} :
    q.ensureNotJoining op = .ok u ↔ q.stage ≠ .joining := by
  rw [ensureNotJoining]
  split <;> simp_all [illegal]

/-! ### Conditions -/

theorem restrict_eq_ok {c : Condition} :
    q.restrict c = .ok r ↔ (q.stage = .rooted ∨ q.stage = .joinFiltered) ∧
      ∃ p, c.resolve q.tables = .ok p ∧ r = { q with filter := p, stage := .whereFiltered } := by
  rw [restrict]
  cases hstage : q.stage with
  | rooted | joinFiltered =>
    simp only [Outcome.bind_eq_ok, Outcome.pure_eq_ok, eq_comm (a := r)]
    simp
  | whereFiltered | joining | shaping => simp [illegal]

theorem joinOn_eq_ok {c : Condition} :
    q.joinOn c = .ok r ↔ q.stage = .joining ∧
      ∃ p, c.resolve q.tables = .ok p ∧
        r = { q with joins := setCondition (some (p.getD (.literal true))) q.joins,
                     stage := .joinFiltered } := by
  rw [joinOn]
  cases hstage : q.stage with
  | joining =>
    simp only [Outcome.bind_eq_ok, Outcome.pure_eq_ok, eq_comm (a := r)]
    simp
  | rooted | joinFiltered | whereFiltered | shaping => simp [illegal]

/-- What an addition to the condition set last makes of a query; nothing is refused for a lack of
joins as long as there is one behind a set join condition. -/
theorem extendPredicate_eq_ok {op : Operation} {combine : Predicate → Predicate → Predicate}
    {c : Condition} :
    q.extendPredicate op combine c = .ok r ↔
      (q.stage = .whereFiltered ∨ q.stage = .joinFiltered) ∧
      ∃ p, c.resolve q.tables = .ok p ∧
        (p = none ∧ r = q ∨
         ∃ a, p = some a ∧
          (q.stage = .whereFiltered ∧ r = { q with filter := combined combine q.filter a } ∨
           q.stage = .joinFiltered ∧ ∃ j, q.joins.getLast? = some j ∧
            r = { q with joins := setCondition (combined combine j.condition a) q.joins })) := by
  rw [extendPredicate]
  cases hstage : q.stage with
  | rooted | joining | shaping => simp [illegal]
  | whereFiltered =>
    simp only [Outcome.bind_eq_ok, reduceCtorEq, or_false, false_and, true_and]
    -- without a predicate the query is returned as it is
    refine exists_congr fun p => and_congr_right fun _ => ?_
    cases p with
    | none =>
      simp only [Outcome.pure_eq_ok, eq_comm (a := r)]
      simp
    | some a =>
      simp only [Outcome.pure_eq_ok, eq_comm (a := r)]
      simp
  | joinFiltered =>
    simp only [Outcome.bind_eq_ok, reduceCtorEq, false_or, false_and, true_and]
    refine exists_congr fun p => and_congr_right fun _ => ?_
    cases p with
    | none =>
      simp only [Outcome.pure_eq_ok, eq_comm (a := r)]
      simp
    | some a =>
      cases q.joins.getLast? with
      | none => simp
      | some j =>
        simp only [Outcome.pure_eq_ok, eq_comm (a := r)]
        simp

/-! ### Joins -/

theorem join_eq_ok {kind : JoinKind} {t : Table} :
    q.join kind t = .ok r ↔ (q.stage = .rooted ∨ q.stage = .joinFiltered) ∧
      t.aliasName ∉ q.tables.map (·.aliasName) ∧ t.attributes ≠ [] ∧
        r = { q with joins := q.joins ++ [{ kind, table := t }], stage := .joining } := by
  have hfresh : t.aliasName ∉ q.tables.map (·.aliasName) ↔ t.aliasName ≠ q.primary.aliasName ∧
      q.joins.any (·.table.aliasName = t.aliasName) = false := by
    simp [tables]
  rw [join, hfresh]
  cases hstage : q.stage with
  | rooted | joinFiltered =>
    -- the checks are made in this order, and the first one that fails decides
    by_cases hprimary : t.aliasName = q.primary.aliasName
    · simp [hprimary]
    by_cases hjoins : q.joins.any (·.table.aliasName = t.aliasName)
    · simp [hprimary, hjoins]
    by_cases hattributes : t.attributes = []
    · simp [hprimary, hjoins, hattributes]
    · have hok : ∀ r' : Query, (Except.ok r' : Result Query) = .ok r ↔ r = r' := by
        simp [eq_comm]
      simp [hprimary, hjoins, hattributes, hok]
  | joining | whereFiltered | shaping => simp [illegal]

/-! ### Projection, order and limits -/

theorem ensureInScope_eq_ok {c : Column} {u : Unit} :
    q.ensureInScope c = .ok u ↔ ∃ t ∈ q.table? c.aliasName, (t.column? c.name).isSome := by
  rw [ensureInScope]
  cases q.table? c.aliasName with
  | none => simp
  | some t => cases h : t.column? c.name <;> simp [h]

theorem select_eq_ok {p : Projection} :
    q.select p = .ok r ↔ q.stage ≠ .joining ∧ q.checkProjection p = .ok () ∧
      r = { q with projection := some p, order := [], limit := none, offset := none,
                   stage := .shaping } := by
  simp only [select, Outcome.bind_eq_ok, Outcome.pure_eq_ok, ensureNotJoining_eq_ok,
    eq_comm (a := r)]
  simp [Unique.exists_iff]

theorem orderBy_eq_ok {t : OrderTerm} :
    q.orderBy t = .ok r ↔ q.stage ≠ .joining ∧ q.ensureTerm t = .ok () ∧
      r = { q with order := [t], stage := .shaping } := by
  simp only [orderBy, Outcome.bind_eq_ok, Outcome.pure_eq_ok, ensureNotJoining_eq_ok,
    eq_comm (a := r)]
  simp [Unique.exists_iff]

/-- A further term needs a first one; the stage is not looked at. -/
theorem thenBy_eq_ok {t : OrderTerm} :
    q.thenBy t = .ok r ↔ q.order ≠ [] ∧ q.ensureTerm t = .ok () ∧
      r = { q with order := q.order ++ [t] } := by
  rw [thenBy]
  by_cases h : q.order = []
  · simp [h]
  · rw [if_neg (by simpa using h)]
    simp only [Outcome.bind_eq_ok, Outcome.pure_eq_ok, eq_comm (a := r)]
    simp [h, Unique.exists_iff]

theorem take_eq_ok {n : UInt64} :
    q.take n = .ok r ↔ q.stage ≠ .joining ∧ r = { q with limit := some n, stage := .shaping } := by
  simp only [take, Outcome.bind_eq_ok, Outcome.pure_eq_ok, ensureNotJoining_eq_ok, eq_comm (a := r)]
  simp

theorem skip_eq_ok {n : UInt64} :
    q.skip n = .ok r ↔ q.stage ≠ .joining ∧ r = { q with offset := some n, stage := .shaping } := by
  simp only [skip, Outcome.bind_eq_ok, Outcome.pure_eq_ok, ensureNotJoining_eq_ok, eq_comm (a := r)]
  simp

theorem paginate_eq_ok {page : PageRequest} :
    q.paginate page = .ok r ↔ q.stage ≠ .joining ∧
      r = { q with limit := some page.limit, offset := some page.offset, stage := .shaping } := by
  simp only [paginate, Outcome.bind_eq_ok, Outcome.pure_eq_ok, ensureNotJoining_eq_ok,
    eq_comm (a := r)]
  simp

/-! ### Statements -/

theorem render_eq_ok {r : Rendered} :
    q.render = .ok r ↔ q.stage ≠ .joining ∧ q.selectSql = .ok r.sql ∧ r.mapper = q.mapper := by
  obtain ⟨sql, mapper⟩ := r
  simp only [render, Outcome.bind_eq_ok, ensureNotJoining_eq_ok, Outcome.mapError_eq_ok,
    Outcome.pure_eq_ok, Rendered.mk.injEq, eq_comm (a := mapper)]
  simp

theorem renderCount_eq_ok {sql : Sql} :
    q.renderCount = .ok sql ↔ q.stage ≠ .joining ∧ q.countSql = .ok sql := by
  simp [renderCount, ensureNotJoining_eq_ok]

/-- What `asTable` returns, and when. -/
theorem asTable_eq_ok {aliasName : String} {t : Table} :
    q.asTable aliasName = .ok t ↔ q.stage ≠ .joining ∧
      ∃ columns, q.effectiveProjection.flat? = some columns ∧
        ∃ sql, q.selectSql = .ok sql ∧
          t = { aliasName, origin := .subquery sql,
                attributes := columns.map (derivedAttribute q.optionalAliases) } := by
  simp only [asTable, Outcome.bind_eq_ok, ensureNotJoining_eq_ok, exists_and_left, exists_const]
  refine and_congr_right fun _ => ?_
  cases q.effectiveProjection.flat? with
  | none => simp
  | some columns =>
    simp only [Outcome.bind_eq_ok, Outcome.mapError_eq_ok, Outcome.pure_eq_ok, eq_comm (a := t)]
    simp

/-! ### Lists of operations -/

@[simp] theorem run_nil : q.run [] = .ok q := rfl

theorem run_cons {s : Step} {steps : List Step} :
    q.run (s :: steps) = .ok r ↔ ∃ q', q.apply s = .ok q' ∧ q'.run steps = .ok r := by
  simp [run]

theorem run_append {steps more : List Step} :
    q.run (steps ++ more) = .ok r ↔ ∃ q', q.run steps = .ok q' ∧ q'.run more = .ok r := by
  simp [run]

/-- What every accepted operation preserves, a list of accepted operations preserves. -/
theorem run_preserves {P : Query → Prop}
    (hstep : ∀ {q r : Query} (s : Step), q.apply s = .ok r → P q → P r) {steps : List Step} :
    ∀ {q r : Query}, q.run steps = .ok r → P q → P r := by
  induction steps with
  | nil =>
    intro q r h hq
    obtain rfl := Except.ok.inj h
    exact hq
  | cons s steps ih =>
    intro q r h hq
    obtain ⟨q', hs, hrest⟩ := run_cons.1 h
    exact ih hrest (hstep s hs hq)

/-! ### What every operation keeps -/

/-- The table that an operation brings into scope. -/
def Step.table? : Step → Option Table
  | join _ t => some t
  | _ => none

@[simp] theorem map_table_setCondition (condition : Option Predicate) :
    ∀ joins : List Join, (setCondition condition joins).map (·.table) = joins.map (·.table)
  | [] => rfl
  | [_] => rfl
  | j :: j' :: joins => by
    have ih := map_table_setCondition condition (j' :: joins)
    simp only [setCondition, List.map_cons] at ih ⊢
    rw [ih]

/-- The condition is set on the last join, and on no other. -/
theorem setCondition_concat (condition : Option Predicate) (j : Join) :
    ∀ joins : List Join, setCondition condition (joins ++ [j]) = joins ++ [{ j with condition }]
  | [] => rfl
  | [_] => rfl
  | j' :: j'' :: joins => by
    have ih := setCondition_concat condition j (j'' :: joins)
    simp only [List.cons_append, setCondition] at ih ⊢
    rw [ih]

/-- An operation keeps the dialect and the tables of a query, to which a join adds its own. -/
theorem apply_frame {s : Step} (h : q.apply s = .ok r) :
    r.dialect = q.dialect ∧ r.tables = q.tables ++ s.table?.toList := by
  cases s with
  | restrict c =>
    obtain ⟨-, p, -, rfl⟩ := restrict_eq_ok.1 h
    simp [tables, Step.table?]
  | joinOn c =>
    obtain ⟨-, p, -, rfl⟩ := joinOn_eq_ok.1 h
    simp [tables, Step.table?]
  | and c | or c =>
    obtain ⟨-, p, -, ⟨-, rfl⟩ | ⟨a, -, ⟨-, rfl⟩ | ⟨-, j, -, rfl⟩⟩⟩ := extendPredicate_eq_ok.1 h <;>
      simp [tables, Step.table?]
  | join kind t =>
    obtain ⟨-, -, -, rfl⟩ := join_eq_ok.1 h
    simp [tables, Step.table?]
  | select p =>
    obtain ⟨-, -, rfl⟩ := select_eq_ok.1 h
    simp [tables, Step.table?]
  | orderBy t =>
    obtain ⟨-, -, rfl⟩ := orderBy_eq_ok.1 h
    simp [tables, Step.table?]
  | thenBy t =>
    obtain ⟨-, -, rfl⟩ := thenBy_eq_ok.1 h
    simp [tables, Step.table?]
  | take n =>
    obtain ⟨-, rfl⟩ := take_eq_ok.1 h
    simp [tables, Step.table?]
  | skip n =>
    obtain ⟨-, rfl⟩ := skip_eq_ok.1 h
    simp [tables, Step.table?]
  | paginate page =>
    obtain ⟨-, rfl⟩ := paginate_eq_ok.1 h
    simp [tables, Step.table?]

/-- An operation keeps the projection of a query or replaces it with one that the query accepts. -/
theorem projection_of_apply {s : Step} (h : q.apply s = .ok r) :
    r.projection = q.projection ∨
      ∃ p, q.checkProjection p = .ok () ∧ r.projection = some p := by
  cases s with
  | restrict c =>
    obtain ⟨-, p, -, rfl⟩ := restrict_eq_ok.1 h
    exact .inl rfl
  | joinOn c =>
    obtain ⟨-, p, -, rfl⟩ := joinOn_eq_ok.1 h
    exact .inl rfl
  | and c | or c =>
    obtain ⟨-, p, -, ⟨-, rfl⟩ | ⟨a, -, ⟨-, rfl⟩ | ⟨-, j, -, rfl⟩⟩⟩ := extendPredicate_eq_ok.1 h <;>
      exact .inl rfl
  | join kind t =>
    obtain ⟨-, -, -, rfl⟩ := join_eq_ok.1 h
    exact .inl rfl
  | select p =>
    obtain ⟨-, hp, rfl⟩ := select_eq_ok.1 h
    exact .inr ⟨p, hp, rfl⟩
  | orderBy t =>
    obtain ⟨-, -, rfl⟩ := orderBy_eq_ok.1 h
    exact .inl rfl
  | thenBy t =>
    obtain ⟨-, -, rfl⟩ := thenBy_eq_ok.1 h
    exact .inl rfl
  | take n =>
    obtain ⟨-, rfl⟩ := take_eq_ok.1 h
    exact .inl rfl
  | skip n =>
    obtain ⟨-, rfl⟩ := skip_eq_ok.1 h
    exact .inl rfl
  | paginate page =>
    obtain ⟨-, rfl⟩ := paginate_eq_ok.1 h
    exact .inl rfl

end Discography.Query
