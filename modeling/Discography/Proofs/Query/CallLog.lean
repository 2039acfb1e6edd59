import Discography.Proofs.Query.Invariant

/-!
# The log of a query

What a list of operations amounts to, read off the list without a query: the clauses stand in it,
each with the additions behind it, and of the projections, orders and limits the last ones count. A
query that the operations lead to has exactly these clauses.

## Main definitions

* `Summary`: the clauses of a query
* `Summary.ofLog`: the clauses that stand in a list of operations
* `Query.summary`: the clauses of a query

## Main results

* `Query.joins_of_run`, `Query.filter_of_run`, `Query.shapedBy_of_run`: the joins, the filter and
  the shape of a query are those that stand in the list that leads to it
-/

namespace Discography

/-! ### What stands in a list of operations -/

/-- The clauses of a query. -/
structure Summary where
  joins : List Join
  filter : Option Predicate
  projection : Option Projection
  order : List OrderTerm
  limit : Option UInt64
  offset : Option UInt64

namespace Query.Step

/-- Whether an operation begins a clause, and does not add to one. -/
def beginsClause : Step → Bool
  | joinOn _ | and _ | or _ => false
  | _ => true

/-- The predicate of a condition of the log; an empty pattern has none. -/
def predicate? (scope : List Table) (c : Condition) : Option Predicate :=
  (c.resolve scope).toOption.join

/-- What an addition makes of the condition that it is added to. An empty pattern is always true
behind `ON` and nothing elsewhere. -/
def addTo (scope : List Table) (present : Option Predicate) : Step → Option Predicate
  | joinOn c => some ((predicate? scope c).getD (.literal true))
  | and c => (predicate? scope c).elim present (combined .and present)
  | or c => (predicate? scope c).elim present (combined .or present)
  | _ => present

/-- The projection that an operation sets. -/
def projection? : Step → Option Projection
  | select p => some p
  | _ => none

/-- The term that an operation starts the order with. -/
def firstTerm? : Step → Option OrderTerm
  | orderBy t => some t
  | _ => none

/-- The term that an operation adds to the order. -/
def furtherTerm? : Step → Option OrderTerm
  | thenBy t => some t
  | _ => none

/-- The limit that an operation sets. -/
def limit? : Step → Option UInt64
  | take n => some n
  | paginate page => some page.limit
  | _ => none

/-- The offset that an operation sets. -/
def offset? : Step → Option UInt64
  | skip n => some n
  | paginate page => some page.offset
  | _ => none

end Query.Step

namespace Summary

open Query Query.Step

/-- The condition of a clause, from the first part of it and from the additions in front of the next
clause. -/
def condition (scope : List Table) (first : Option Predicate) (behind : List Step) :
    Option Predicate :=
  (behind.takeWhile fun s => !s.beginsClause).foldl (addTo scope) first

/-- The joins of a list of operations. Conditions are about the tables so far. -/
def joinsOfLog (scope : List Table) : List Step → List Join
  | [] => []
  | .join kind t :: behind =>
    ⟨kind, t, condition (scope ++ [t]) none behind⟩ :: joinsOfLog (scope ++ [t]) behind
  | _ :: behind => joinsOfLog scope behind

/-- The filter of a list of operations. -/
def filterOfLog (scope : List Table) : List Step → Option Predicate
  | [] => none
  | .restrict c :: behind => condition scope (predicate? scope c) behind
  | .join _ t :: behind => filterOfLog (scope ++ [t]) behind
  | _ :: behind => filterOfLog scope behind

/-- The last value that a list of operations sets, and the operations behind it. -/
def lastOfLog {α : Type} (value? : Step → Option α) : List Step → Option (α × List Step)
  | [] => none
  | s :: behind =>
    (lastOfLog value? behind).or ((value? s).map fun a => (a, behind))

/-- The operations behind the last projection; all of them if there is none. -/
def behindProjection (steps : List Step) : List Step :=
  (lastOfLog projection? steps).elim steps (·.2)

/-- The last first term of an order behind the last projection, and the further terms behind it. -/
def orderOfLog (steps : List Step) : List OrderTerm :=
  (lastOfLog firstTerm? (behindProjection steps)).elim []
    fun (first, behind) => first :: behind.filterMap furtherTerm?

/-- The last number behind the last projection. -/
def numberOfLog (number? : Step → Option UInt64) (steps : List Step) : Option UInt64 :=
  (lastOfLog number? (behindProjection steps)).map (·.1)

/-- The clauses that stand in a list of operations on a query for a table. -/
def ofLog (t : Table) (steps : List Step) : Summary where
  joins := joinsOfLog [t] steps
  filter := filterOfLog [t] steps
  projection := (lastOfLog projection? steps).map (·.1)
  order := orderOfLog steps
  limit := numberOfLog limit? steps
  offset := numberOfLog offset? steps

theorem lastOfLog_concat {α : Type} (value? : Step → Option α) (s : Step) (steps : List Step) :
    lastOfLog value? (steps ++ [s]) =
      ((value? s).map fun a => (a, [])).or
        ((lastOfLog value? steps).map fun (a, behind) => (a, behind ++ [s])) := by
  induction steps with
  | nil => simp [lastOfLog]
  | cons s' steps ih =>
    rw [List.cons_append, lastOfLog, lastOfLog, ih]
    cases value? s <;> cases lastOfLog value? steps <;> cases value? s' <;> simp

/-- An operation that sets no value leaves the last one where it is. -/
theorem lastOfLog_concat_of_none {α : Type} {value? : Step → Option α} {s : Step}
    (h : value? s = none) (steps : List Step) :
    lastOfLog value? (steps ++ [s]) =
      (lastOfLog value? steps).map fun (a, behind) => (a, behind ++ [s]) := by
  simp [lastOfLog_concat, h]

theorem lastOfLog_concat_of_some {α : Type} {value? : Step → Option α} {s : Step} {a : α}
    (h : value? s = some a) (steps : List Step) :
    lastOfLog value? (steps ++ [s]) = some (a, []) := by
  simp [lastOfLog_concat, h]

theorem behindProjection_concat {s : Step} (h : s.projection? = none) (steps : List Step) :
    behindProjection (steps ++ [s]) = behindProjection steps ++ [s] := by
  rw [behindProjection, behindProjection, lastOfLog_concat_of_none h]
  cases lastOfLog projection? steps <;> rfl

theorem behindProjection_concat_select (p : Projection) (steps : List Step) :
    behindProjection (steps ++ [.select p]) = [] := by
  rw [behindProjection, lastOfLog_concat_of_some (a := p) rfl]
  rfl

theorem orderOfLog_concat {s : Step} (hp : s.projection? = none) (hfirst : s.firstTerm? = none)
    (hfurther : s.furtherTerm? = none) (steps : List Step) :
    orderOfLog (steps ++ [s]) = orderOfLog steps := by
  rw [orderOfLog, orderOfLog, behindProjection_concat hp, lastOfLog_concat_of_none hfirst]
  cases lastOfLog firstTerm? (behindProjection steps) with
  | none => rfl
  | some last => simp [hfurther]

theorem orderOfLog_concat_orderBy (t : OrderTerm) (steps : List Step) :
    orderOfLog (steps ++ [.orderBy t]) = [t] := by
  rw [orderOfLog, behindProjection_concat rfl, lastOfLog_concat_of_some (a := t) rfl]
  rfl

theorem orderOfLog_concat_thenBy {steps : List Step} (h : orderOfLog steps ≠ []) (t : OrderTerm) :
    orderOfLog (steps ++ [.thenBy t]) = orderOfLog steps ++ [t] := by
  rw [orderOfLog] at h ⊢
  rw [orderOfLog, behindProjection_concat rfl, lastOfLog_concat_of_none rfl]
  -- without a first term there would be no order
  cases hlast : lastOfLog firstTerm? (behindProjection steps) with
  | none => simp [hlast] at h
  | some last => simp [furtherTerm?]

theorem numberOfLog_concat_of_none {number? : Step → Option UInt64} {s : Step}
    (hp : s.projection? = none) (h : number? s = none) (steps : List Step) :
    numberOfLog number? (steps ++ [s]) = numberOfLog number? steps := by
  rw [numberOfLog, numberOfLog, behindProjection_concat hp, lastOfLog_concat_of_none h]
  cases lastOfLog number? (behindProjection steps) <;> rfl

theorem numberOfLog_concat_of_some {number? : Step → Option UInt64} {s : Step} {n : UInt64}
    (hp : s.projection? = none) (h : number? s = some n) (steps : List Step) :
    numberOfLog number? (steps ++ [s]) = some n := by
  rw [numberOfLog, behindProjection_concat hp, lastOfLog_concat_of_some h]
  rfl

/-- A projection leaves no order and no limits behind. -/
theorem shape_concat_select (p : Projection) (steps : List Step) :
    orderOfLog (steps ++ [.select p]) = [] ∧
      ∀ number? : Step → Option UInt64, numberOfLog number? (steps ++ [.select p]) = none := by
  rw [orderOfLog, behindProjection_concat_select]
  refine ⟨rfl, fun number? => ?_⟩
  rw [numberOfLog, behindProjection_concat_select]
  rfl

/-- A clause ends where the next one begins. -/
theorem condition_cons_of_beginsClause {scope : List Table} {s : Step} (h : s.beginsClause)
    (first : Option Predicate) (behind : List Step) :
    condition scope first (s :: behind) = first := by
  simp [condition, h]

theorem condition_cons {scope : List Table} {s : Step} (h : s.beginsClause = false)
    (first : Option Predicate) (behind : List Step) :
    condition scope first (s :: behind) = condition scope (s.addTo scope first) behind := by
  simp [condition, h]

end Summary

namespace Query

open Summary

variable {q r : Query} {s : Step}

/-! ### Joins -/

/-- The joins of a query; the last one has the additions in front of the next clause too if its
condition was set last. -/
def joinsBefore (q : Query) (behind : List Step) : List Join :=
  match q.stage with
  | .joining | .joinFiltered =>
    setCondition (condition q.tables (q.joins.getLast?.bind (·.condition)) behind) q.joins
  | _ => q.joins

theorem setCondition_last (joins : List Join) :
    setCondition (joins.getLast?.bind (·.condition)) joins = joins := by
  rcases List.eq_nil_or_concat' joins with rfl | ⟨joins, j, rfl⟩
  · rfl
  · rw [setCondition_concat]
    simp

theorem joinsBefore_of_beginsClause (h : s.beginsClause) (behind : List Step) :
    q.joinsBefore (s :: behind) = q.joins := by
  rw [joinsBefore, condition_cons_of_beginsClause h, setCondition_last]
  cases q.stage <;> rfl

theorem predicate?_of_resolve {scope : List Table} {c : Condition} {p : Option Predicate}
    (h : c.resolve scope = .ok p) : Step.predicate? scope c = p := by
  rw [Step.predicate?, h]
  cases p <;> rfl

/-- Setting the condition of the last join again, the additions start from the new one. -/
theorem joinsBefore_setCondition (hne : q.joins ≠ []) (p : Option Predicate) (behind : List Step) :
    joinsBefore { q with joins := setCondition p q.joins, stage := .joinFiltered } behind =
      setCondition (condition q.tables p behind) q.joins := by
  have htables : ({ q with joins := setCondition p q.joins, stage := .joinFiltered } :
      Query).tables = q.tables := by
    simp [tables]
  obtain ⟨joins, j, hjoins⟩ := (List.eq_nil_or_concat' q.joins).resolve_left hne
  -- the first condition is overwritten by the one with the additions
  simp only [joinsBefore, htables]
  rw [hjoins, setCondition_concat, setCondition_concat, setCondition_concat]
  simp

theorem joinsBefore_extendPredicate (hq : q.Invariant) {op : Operation} {connective : Connective}
    {c : Condition} (h : q.extendPredicate op (Predicate.extend connective) c = .ok r)
    (hbegins : s.beginsClause = false)
    (hadd : ∀ present, s.addTo q.tables present =
      (Step.predicate? q.tables c).elim present (combined (Predicate.extend connective) present))
    (behind : List Step) :
    r.joinsBefore behind = q.joinsBefore (s :: behind) := by
  obtain ⟨hstage, p, hp, h⟩ := extendPredicate_eq_ok.1 h
  have hpredicate := predicate?_of_resolve hp
  -- no pattern at all adds nothing, and what is added goes to the filter or to the last join
  obtain ⟨rfl, rfl⟩ | ⟨a, rfl, ⟨hwhere, rfl⟩ | ⟨hon, j, hj, rfl⟩⟩ := h
  · rw [joinsBefore, joinsBefore, condition_cons hbegins, hadd, hpredicate]
    rfl
  · simp only [joinsBefore, hwhere]
  · have hne : q.joins ≠ [] := hq.joins_ne_nil (.inr hon)
    have hset := joinsBefore_setCondition hne (combined (Predicate.extend connective) j.condition a)
      behind
    rw [← hon] at hset
    rw [hset, joinsBefore, hon, condition_cons hbegins, hadd, hpredicate, hj]
    rfl

/-- No operation changes the joins that a query ends up with. -/
theorem joinsBefore_apply (hq : q.Invariant) (h : q.apply s = .ok r) (behind : List Step) :
    r.joinsBefore behind ++ joinsOfLog r.tables behind =
      q.joinsBefore (s :: behind) ++ joinsOfLog q.tables (s :: behind) := by
  obtain ⟨-, htables⟩ := apply_frame h
  rw [htables]
  cases s with
  | restrict c =>
    obtain ⟨-, p, -, rfl⟩ := restrict_eq_ok.1 h
    rw [joinsBefore_of_beginsClause rfl]
    simp [joinsBefore, Step.table?, joinsOfLog]
  | joinOn c =>
    obtain ⟨hstage, p, hp, rfl⟩ := joinOn_eq_ok.1 h
    have hpredicate := predicate?_of_resolve hp
    rw [joinsBefore_setCondition (hq.joins_ne_nil (.inl hstage)), joinsBefore, hstage,
      condition_cons (s := .joinOn c) rfl, Step.addTo, hpredicate]
    simp [Step.table?, joinsOfLog]
  | and c =>
    rw [joinsBefore_extendPredicate (s := .and c) hq h rfl fun _ => rfl]
    simp [Step.table?, joinsOfLog]
  | or c =>
    rw [joinsBefore_extendPredicate (s := .or c) hq h rfl fun _ => rfl]
    simp [Step.table?, joinsOfLog]
  -- the condition of the join before is complete, and that of the new one is yet to come
  | join kind t =>
    obtain ⟨-, -, -, rfl⟩ := join_eq_ok.1 h
    rw [joinsBefore_of_beginsClause rfl]
    simp [joinsBefore, Step.table?, joinsOfLog, setCondition_concat, tables]
  | select _ | orderBy _ | thenBy _ | take _ | skip _ | paginate _ =>
    obtain ⟨-, _, _, _, _, rfl⟩ := shape_of_apply hq rfl h
    rw [joinsBefore_of_beginsClause rfl]
    simp [joinsBefore, Step.table?, joinsOfLog]

theorem joins_of_run {steps : List Step} (hq : q.Invariant) (h : q.run steps = .ok r) :
    r.joins = q.joinsBefore steps ++ joinsOfLog q.tables steps := by
  induction steps generalizing q with
  | nil =>
    obtain rfl := Except.ok.inj h
    -- with nothing behind, no addition is left
    have hbefore : q.joinsBefore [] = q.joins := by
      simp only [joinsBefore, condition, List.takeWhile_nil, List.foldl_nil, setCondition_last]
      cases q.stage <;> rfl
    simp [hbefore, joinsOfLog]
  | cons s steps ih =>
    obtain ⟨q', hs, hrest⟩ := run_cons.1 h
    rw [ih (hq.apply hs) hrest, joinsBefore_apply hq hs]

/-! ### Filters -/

/-- Behind shaping there is no filter to come. -/
theorem filterOfLog_of_shaping {steps : List Step} (hstage : q.stage = .shaping)
    (h : q.run steps = .ok r) (scope : List Table) : filterOfLog scope steps = none := by
  induction steps generalizing q with
  | nil => rfl
  | cons s steps ih =>
    obtain ⟨q', hs, hrest⟩ := run_cons.1 h
    have hskip := ih (shaping_of_apply hstage hs) hrest
    cases s with
    -- a filter may only begin before shaping, and so may a join
    | restrict c =>
      obtain ⟨hearly, -⟩ := restrict_eq_ok.1 hs
      simp [hstage] at hearly
    | join kind t =>
      obtain ⟨hearly, -⟩ := join_eq_ok.1 hs
      simp [hstage] at hearly
    | _ => exact hskip

/-- The filter of a query with the additions in front of the next clause, or the filter to come. -/
def filterBefore (q : Query) (behind : List Step) : Option Predicate :=
  match q.stage with
  | .whereFiltered => condition q.tables q.filter behind
  | .shaping => q.filter
  | _ => filterOfLog q.tables behind

/-- An operation that begins a clause behind the filter keeps the filter as it is. -/
theorem filterBefore_of_shaping {behind : List Step} {final : Query} (hq : q.Invariant)
    (hs : s.beginsClause)
    (hskip : ∀ scope, filterOfLog scope (s :: behind) = filterOfLog scope behind)
    (hr : r.stage = .shaping) (hfilter : r.filter = q.filter) (h : r.run behind = .ok final) :
    r.filterBefore behind = q.filterBefore (s :: behind) := by
  have hnone := filterOfLog_of_shaping hr h q.tables
  simp only [filterBefore, hr, hfilter, condition_cons_of_beginsClause hs, hskip, hnone]
  -- before the filter stage there is none, and afterwards it stays as it is
  cases hstage : q.stage with
  | whereFiltered | shaping => rfl
  | rooted | joining | joinFiltered => exact hq.unfiltered (by simp [hstage]) (by simp [hstage])

theorem filterBefore_extendPredicate {op : Operation} {connective : Connective} {c : Condition}
    (h : q.extendPredicate op (Predicate.extend connective) c = .ok r)
    (hbegins : s.beginsClause = false)
    (hadd : ∀ present, s.addTo q.tables present =
      (Step.predicate? q.tables c).elim present (combined (Predicate.extend connective) present))
    (hskip : ∀ (scope : List Table) (behind : List Step),
      filterOfLog scope (s :: behind) = filterOfLog scope behind)
    (behind : List Step) :
    r.filterBefore behind = q.filterBefore (s :: behind) := by
  obtain ⟨hstage, p, hp, h⟩ := extendPredicate_eq_ok.1 h
  have hpredicate := predicate?_of_resolve hp
  -- an addition to the last join is skipped when the filter to come is looked for
  obtain ⟨rfl, rfl⟩ | ⟨a, rfl, ⟨hwhere, rfl⟩ | ⟨hon, j, hj, rfl⟩⟩ := h
  · rw [filterBefore, filterBefore, condition_cons hbegins, hadd, hpredicate, hskip]
    rfl
  · simp only [filterBefore, hwhere, condition_cons hbegins, hadd, hpredicate]
    rfl
  · simp [filterBefore, hon, hskip, tables]

/-- No operation changes the filter that a query ends up with. -/
theorem filterBefore_apply {behind : List Step} {final : Query} (hq : q.Invariant)
    (h : q.apply s = .ok r) (hfinal : r.run behind = .ok final) :
    r.filterBefore behind = q.filterBefore (s :: behind) := by
  cases s with
  | restrict c =>
    obtain ⟨hstage, p, hp, rfl⟩ := restrict_eq_ok.1 h
    have hpredicate := predicate?_of_resolve hp
    rw [tables] at hpredicate
    rcases hstage with hstage | hstage <;>
      simp [filterBefore, hstage, filterOfLog, hpredicate, tables]
  | joinOn c =>
    obtain ⟨hstage, p, -, rfl⟩ := joinOn_eq_ok.1 h
    simp [filterBefore, hstage, filterOfLog, tables]
  | and c =>
    exact filterBefore_extendPredicate (s := .and c) h rfl (fun _ => rfl) (fun _ _ => rfl) _
  | or c =>
    exact filterBefore_extendPredicate (s := .or c) h rfl (fun _ => rfl) (fun _ _ => rfl) _
  -- a join comes before the filter, so the filter to come is the same one
  | join kind t =>
    obtain ⟨hstage, -, -, rfl⟩ := join_eq_ok.1 h
    rcases hstage with hstage | hstage <;> simp [filterBefore, hstage, filterOfLog, tables]
  | select _ | orderBy _ | thenBy _ | take _ | skip _ | paginate _ =>
    obtain ⟨-, _, _, _, _, rfl⟩ := shape_of_apply hq rfl h
    exact filterBefore_of_shaping hq rfl (fun _ => rfl) rfl rfl hfinal

theorem filter_of_run {steps : List Step} (hq : q.Invariant) (h : q.run steps = .ok r) :
    r.filter = q.filterBefore steps := by
  induction steps generalizing q with
  | nil =>
    obtain rfl := Except.ok.inj h
    rw [filterBefore]
    cases hstage : q.stage with
    | whereFiltered | shaping => rfl
    | rooted | joining | joinFiltered => exact hq.unfiltered (by simp [hstage]) (by simp [hstage])
  | cons s steps ih =>
    obtain ⟨q', hs, hrest⟩ := run_cons.1 h
    rw [ih (hq.apply hs) hrest, filterBefore_apply hq hs hrest]

/-! ### Projection, order and limits -/

/-- The clauses of a query. -/
def summary (q : Query) : Summary where
  joins := q.joins
  filter := q.filter
  projection := q.projection
  order := q.order
  limit := q.limit
  offset := q.offset

/-- The shape of a query is the shape that stands in a list of operations. -/
structure ShapedBy (q : Query) (steps : List Step) : Prop where
  projection : q.projection = (lastOfLog Step.projection? steps).map (·.1)
  order : q.order = orderOfLog steps
  limit : q.limit = numberOfLog Step.limit? steps
  offset : q.offset = numberOfLog Step.offset? steps

/-- An operation that sets nothing of the shape leaves it as it is. -/
theorem ShapedBy.concat {steps : List Step} (hq : q.ShapedBy steps) (hp : s.projection? = none)
    (hfirst : s.firstTerm? = none) (hfurther : s.furtherTerm? = none) (hlimit : s.limit? = none)
    (hoffset : s.offset? = none) (hprojection : r.projection = q.projection)
    (horder : r.order = q.order) (hl : r.limit = q.limit) (ho : r.offset = q.offset) :
    r.ShapedBy (steps ++ [s]) where
  projection := by
    rw [hprojection, hq.projection, lastOfLog_concat_of_none hp]
    cases lastOfLog Step.projection? steps <;> rfl
  order := by rw [horder, hq.order, orderOfLog_concat hp hfirst hfurther]
  limit := by rw [hl, hq.limit, numberOfLog_concat_of_none hp hlimit]
  offset := by rw [ho, hq.offset, numberOfLog_concat_of_none hp hoffset]

theorem ShapedBy.apply {steps : List Step} (hq : q.ShapedBy steps) (h : q.apply s = .ok r) :
    r.ShapedBy (steps ++ [s]) := by
  have hprojection : s.projection? = none →
      (lastOfLog Step.projection? (steps ++ [s])).map (·.1) = q.projection := by
    intro hp
    rw [hq.projection, lastOfLog_concat_of_none hp]
    cases lastOfLog Step.projection? steps <;> rfl
  -- conditions and joins leave the shape alone, and each of the others sets its own part of it
  cases s with
  | restrict c =>
    obtain ⟨-, p, -, rfl⟩ := restrict_eq_ok.1 h
    exact hq.concat rfl rfl rfl rfl rfl rfl rfl rfl rfl
  | joinOn c =>
    obtain ⟨-, p, -, rfl⟩ := joinOn_eq_ok.1 h
    exact hq.concat rfl rfl rfl rfl rfl rfl rfl rfl rfl
  | and c | or c =>
    obtain ⟨-, p, -, ⟨-, rfl⟩ | ⟨a, -, ⟨-, rfl⟩ | ⟨-, j, -, rfl⟩⟩⟩ := extendPredicate_eq_ok.1 h <;>
      exact hq.concat rfl rfl rfl rfl rfl rfl rfl rfl rfl
  | join kind t =>
    obtain ⟨-, -, -, rfl⟩ := join_eq_ok.1 h
    exact hq.concat rfl rfl rfl rfl rfl rfl rfl rfl rfl
  | select p =>
    obtain ⟨-, -, rfl⟩ := select_eq_ok.1 h
    obtain ⟨horder, hnumber⟩ := shape_concat_select p steps
    constructor
    · rw [lastOfLog_concat_of_some (a := p) rfl]
      rfl
    · exact horder.symm
    · exact (hnumber _).symm
    · exact (hnumber _).symm
  | orderBy t =>
    obtain ⟨-, -, rfl⟩ := orderBy_eq_ok.1 h
    exact ⟨(hprojection rfl).symm, (orderOfLog_concat_orderBy t steps).symm,
      by rw [numberOfLog_concat_of_none rfl rfl, ← hq.limit],
      by rw [numberOfLog_concat_of_none rfl rfl, ← hq.offset]⟩
  | thenBy t =>
    obtain ⟨horder, -, rfl⟩ := thenBy_eq_ok.1 h
    -- the operation is accepted behind an order only, so there is a first term to be behind of
    rw [hq.order] at horder
    exact ⟨(hprojection rfl).symm, by rw [orderOfLog_concat_thenBy horder, ← hq.order],
      by rw [numberOfLog_concat_of_none rfl rfl, ← hq.limit],
      by rw [numberOfLog_concat_of_none rfl rfl, ← hq.offset]⟩
  | take n =>
    obtain ⟨-, rfl⟩ := take_eq_ok.1 h
    exact ⟨(hprojection rfl).symm, by rw [orderOfLog_concat rfl rfl rfl, ← hq.order],
      (numberOfLog_concat_of_some rfl rfl steps).symm,
      by rw [numberOfLog_concat_of_none rfl rfl, ← hq.offset]⟩
  | skip n =>
    obtain ⟨-, rfl⟩ := skip_eq_ok.1 h
    exact ⟨(hprojection rfl).symm, by rw [orderOfLog_concat rfl rfl rfl, ← hq.order],
      by rw [numberOfLog_concat_of_none rfl rfl, ← hq.limit],
      (numberOfLog_concat_of_some rfl rfl steps).symm⟩
  | paginate page =>
    obtain ⟨-, rfl⟩ := paginate_eq_ok.1 h
    exact ⟨(hprojection rfl).symm, by rw [orderOfLog_concat rfl rfl rfl, ← hq.order],
      (numberOfLog_concat_of_some rfl rfl steps).symm,
      (numberOfLog_concat_of_some rfl rfl steps).symm⟩

theorem shapedBy_of_run {d : Dialect} {t : Table} {steps : List Step}
    (h : (ofTable d t).run steps = .ok q) : q.ShapedBy steps := by
  -- which operation counts is known from behind, so the list grows at its end
  induction steps using List.reverseRecOn generalizing q with
  | nil =>
    obtain rfl := Except.ok.inj h
    exact ⟨rfl, rfl, rfl, rfl⟩
  | append_singleton steps s ih =>
    obtain ⟨q', hq', hs⟩ := run_append.1 h
    obtain ⟨r, hr, hnil⟩ := run_cons.1 hs
    obtain rfl := Except.ok.inj hnil
    exact (ih hq').apply hr

end Query

end Discography
