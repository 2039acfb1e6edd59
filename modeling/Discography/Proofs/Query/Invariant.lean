import Discography.Proofs.Query.Changes
import Discography.Proofs.Query.Steps

/-!
# What holds of every query

A query that operations lead to keeps its tables apart, has a condition for every join but one that
waits for it, and has at each stage only the clauses that belong to the stages so far. No operation
checks all of this; each one preserves it.

## Main definitions

* `Column.InScope`: a column of one of the tables
* `Query.Invariant`: what holds of every query

## Main results

* `Query.Invariant.apply`: an operation preserves the invariant
* `Query.shape_of_apply`: shaping changes the shape of a query only
* `Query.invariant_of_run`: it holds after every list of operations, which therefore never run into
  a missing condition, a missing join, or an order of a query that waits for a condition
-/

namespace Discography

/-- One of the tables has the alias and the column. -/
def Column.InScope (scope : List Table) (c : Column) : Prop :=
  ∃ t ∈ scope, t.aliasName = c.aliasName ∧ ∃ a ∈ t.attributes, a.name = c.name

/-- The table of an alias is the only one. -/
theorem filter_aliasName_eq {tables : List Table} (h : (tables.map (·.aliasName)).Nodup)
    {t : Table} (ht : t ∈ tables) : tables.filter (·.aliasName = t.aliasName) = [t] := by
  induction tables with
  | nil => cases ht
  | cons first tables ih =>
    rw [List.map_cons, List.nodup_cons] at h
    rcases List.mem_cons.mp ht with rfl | ht
    · have hrest : ∀ u ∈ tables, u.aliasName ≠ t.aliasName := fun u hu heq =>
        h.1 (heq ▸ List.mem_map_of_mem hu)
      rw [List.filter_cons_of_pos (by simp), List.filter_eq_nil_iff.mpr (by simpa using hrest)]
    · have hne : first.aliasName ≠ t.aliasName := fun heq => h.1 (heq ▸ List.mem_map_of_mem ht)
      rw [List.filter_cons_of_neg (by simpa using hne), ih h.2 ht]

namespace Query

variable {q r : Query}

/-- What holds of every query that operations lead to. -/
structure Invariant (q : Query) : Prop where
  nodup_aliases : (q.tables.map (·.aliasName)).Nodup
  attributes_ne_nil : ∀ j ∈ q.joins, j.table.attributes ≠ []
  earlier_condition : ∀ j ∈ q.joins.dropLast, j.condition.isSome
  last_condition : ∀ j ∈ q.joins.getLast?, j.condition = none ↔ q.stage = .joining
  joins_eq_nil : q.stage = .rooted → q.joins = []
  joins_ne_nil : q.stage = .joining ∨ q.stage = .joinFiltered → q.joins ≠ []
  filtered : q.filter.isSome → q.stage = .whereFiltered ∨ q.stage = .shaping
  shaped : q.projection.isSome ∨ q.order ≠ [] ∨ q.limit.isSome ∨ q.offset.isSome →
    q.stage = .shaping
  projection_inScope : ∀ p ∈ q.projection, ∀ leaf ∈ p.leaves, leaf.2.InScope q.tables
  order_inScope : ∀ t ∈ q.order, ∀ c, t.key = .column c → c.InScope q.tables

theorem invariant_ofTable (d : Dialect) (t : Table) : (ofTable d t).Invariant := by
  constructor <;> simp [ofTable, tables]

/-! ### Columns in scope -/

theorem inScope_of_ensureInScope {c : Column} (h : q.ensureInScope c = .ok ()) :
    c.InScope q.tables := by
  obtain ⟨t, ht, hc⟩ := ensureInScope_eq_ok.1 h
  have hmem : t ∈ q.tables := List.mem_of_find?_eq_some ht
  have halias : t.aliasName = c.aliasName := by simpa using List.find?_some ht
  obtain ⟨a, ha⟩ := Option.isSome_iff_exists.1 hc
  obtain ⟨a, ha, -⟩ := Option.map_eq_some_iff.1 ha
  exact ⟨t, hmem, halias, a, List.mem_of_find?_eq_some ha, by simpa using List.find?_some ha⟩

theorem inScope_of_ensureTerm {t : OrderTerm} (h : q.ensureTerm t = .ok ()) {c : Column}
    (hc : t.key = .column c) : c.InScope q.tables := by
  rw [ensureTerm, hc] at h
  exact inScope_of_ensureInScope h

mutual

/-- All columns of a projection that a query accepts are in scope, at any depth. -/
theorem inScope_of_checkProjection : ∀ {p : Projection}, q.checkProjection p = .ok () →
    ∀ leaf ∈ p.leaves, leaf.2.InScope q.tables
  | .column c, h, leaf, hleaf => by
    obtain rfl := List.mem_singleton.1 hleaf
    exact inScope_of_ensureInScope h
  | .object [], h, _, _ => by simp [checkProjection] at h
  | .object (_ :: _), h, leaf, hleaf => inScope_of_checkFields h leaf hleaf

theorem inScope_of_checkFields : ∀ {fields : List (String × Projection)} {seen : List String},
    q.checkFields seen fields = .ok () →
      ∀ leaf ∈ Projection.fieldLeaves fields, leaf.2.InScope q.tables
  | [], _, _, _, hleaf => absurd hleaf (by simp [Projection.fieldLeaves])
  | (key, p) :: rest, seen, h, leaf, hleaf => by
    rw [checkFields] at h
    split at h
    · exact absurd h (by simp)
    · obtain ⟨_, hp, hrest⟩ := Outcome.bind_eq_ok.1 h
      rw [Projection.fieldLeaves] at hleaf
      rcases List.mem_append.1 hleaf with hleaf | hleaf
      · obtain ⟨inner, hinner, rfl⟩ := List.mem_map.1 hleaf
        exact inScope_of_checkProjection hp inner hinner
      · exact inScope_of_checkFields hrest leaf hleaf

end

/-! ### Operations preserve the invariant -/

namespace Invariant

/-- Before shaping there is neither a projection nor an order nor a limit. -/
theorem unshaped (hq : q.Invariant) (h : q.stage ≠ .shaping) :
    q.projection = none ∧ q.order = [] ∧ q.limit = none ∧ q.offset = none := by
  have hshaped := mt hq.shaped h
  simpa [not_or] using hshaped

/-- While there is no filter stage, there is no filter. -/
theorem unfiltered (hq : q.Invariant) (hw : q.stage ≠ .whereFiltered) (hs : q.stage ≠ .shaping) :
    q.filter = none := by
  have hfiltered := mt hq.filtered (by simp [hw, hs])
  simpa using hfiltered

/-- A join that waits for its condition is the only one without a condition. -/
theorem condition_isSome (hq : q.Invariant) (h : q.stage ≠ .joining) :
    ∀ j ∈ q.joins, j.condition.isSome := by
  intro j hj
  rcases List.eq_nil_or_concat' q.joins with hnil | ⟨joins, last, hjoins⟩
  · simp [hnil] at hj
  · have hearlier := hq.earlier_condition
    have hlast := hq.last_condition
    rw [hjoins] at hj hearlier hlast
    rcases List.mem_append.1 hj with hj | hj
    · exact hearlier j (by simpa using hj)
    · obtain rfl := List.mem_singleton.1 hj
      -- the last join lacks its condition while the query waits for it, and at no other stage
      have hnone : ¬j.condition = none := fun hnone => h ((hlast j (by simp)).1 hnone)
      exact Option.isSome_iff_ne_none.2 hnone

theorem restrict {c : Condition} (hq : q.Invariant) (h : q.restrict c = .ok r) : r.Invariant := by
  obtain ⟨hstage, p, -, rfl⟩ := restrict_eq_ok.1 h
  have hne : q.stage ≠ .joining ∧ q.stage ≠ .shaping := by
    rcases hstage with h | h <;> simp [h]
  obtain ⟨hprojection, horder, hlimit, hoffset⟩ := hq.unshaped hne.2
  exact
    { hq with
      last_condition := fun j hj => by simpa [hne.1] using hq.last_condition j hj
      joins_eq_nil := by simp
      joins_ne_nil := by simp
      filtered := by simp
      shaped := by simp [hprojection, horder, hlimit, hoffset] }

/-- Setting the condition of the last join leaves the earlier ones alone. -/
theorem setCondition (hq : q.Invariant) (h : q.stage = .joining ∨ q.stage = .joinFiltered)
    (p : Predicate) :
    Invariant { q with joins := setCondition (some p) q.joins, stage := .joinFiltered } := by
  have hne : q.stage ≠ .whereFiltered ∧ q.stage ≠ .shaping := by
    rcases h with h | h <;> simp [h]
  obtain ⟨hprojection, horder, hlimit, hoffset⟩ := hq.unshaped hne.2
  have hfilter := hq.unfiltered hne.1 hne.2
  -- there is a join at these stages, and only the last one gets another condition
  obtain ⟨joins, j, hjoins⟩ := (List.eq_nil_or_concat' q.joins).resolve_left (hq.joins_ne_nil h)
  have htables : ({ q with joins := Query.setCondition (some p) q.joins, stage := .joinFiltered } :
      Query).tables = q.tables := by
    simp [tables]
  have hearlier := hq.earlier_condition
  have hattributes := hq.attributes_ne_nil
  rw [hjoins] at hearlier hattributes
  constructor
  · rw [htables]
    exact hq.nodup_aliases
  · rw [hjoins, setCondition_concat]
    simpa [or_imp, forall_and] using hattributes
  · rw [hjoins, setCondition_concat]
    simpa using hearlier
  · rw [hjoins, setCondition_concat]
    simp
  · simp
  · rw [hjoins, setCondition_concat]
    simp
  · simp [hfilter]
  · simp [hprojection, horder, hlimit, hoffset]
  · simp [hprojection]
  · simp [horder]

theorem joinOn {c : Condition} (hq : q.Invariant) (h : q.joinOn c = .ok r) : r.Invariant := by
  obtain ⟨hstage, p, -, rfl⟩ := joinOn_eq_ok.1 h
  exact hq.setCondition (.inl hstage) (p.getD (.literal true))

theorem extendPredicate {op : Operation} {combine : Predicate → Predicate → Predicate}
    {c : Condition} (hq : q.Invariant) (h : q.extendPredicate op combine c = .ok r) :
    r.Invariant := by
  obtain ⟨-, p, -, ⟨-, rfl⟩ | ⟨a, -, ⟨hwhere, rfl⟩ | ⟨hon, j, -, rfl⟩⟩⟩ := extendPredicate_eq_ok.1 h
  · exact hq
  · exact { hq with filtered := fun _ => .inl hwhere }
  -- setting the condition of a join leads to the stage that the query is in
  · have hset := hq.setCondition (.inr hon) (j.condition.elim a (combine · a))
    rwa [← hon] at hset

theorem join {kind : JoinKind} {t : Table} (hq : q.Invariant) (h : q.join kind t = .ok r) :
    r.Invariant := by
  obtain ⟨hstage, hfresh, hattributes, rfl⟩ := join_eq_ok.1 h
  have hne : q.stage ≠ .joining ∧ q.stage ≠ .whereFiltered ∧ q.stage ≠ .shaping := by
    rcases hstage with h | h <;> simp [h]
  obtain ⟨hprojection, horder, hlimit, hoffset⟩ := hq.unshaped hne.2.2
  have hfilter := hq.unfiltered hne.2.1 hne.2.2
  constructor
  -- the new alias is none of those that the query has
  · have htables : ({ q with joins := q.joins ++ [{ kind, table := t }], stage := .joining } :
        Query).tables = q.tables ++ [t] := by
      simp [tables]
    rw [htables, List.map_append, List.map_singleton, List.nodup_append]
    refine ⟨hq.nodup_aliases, by simp, fun x hx y hy => ?_⟩
    obtain rfl := List.mem_singleton.1 hy
    exact fun heq => hfresh (heq ▸ hx)
  · intro j hj
    rcases List.mem_append.1 hj with hj | hj
    · exact hq.attributes_ne_nil j hj
    · obtain rfl := List.mem_singleton.1 hj
      exact hattributes
  · intro j hj
    -- all former joins are earlier ones now, and the stage says that they have conditions
    exact hq.condition_isSome hne.1 j (by simpa using hj)
  · simp
  · simp
  · simp
  · simp [hfilter]
  · simp [hprojection, horder, hlimit, hoffset]
  · simp [hprojection]
  · simp [horder]

/-- An operation that gives a query its projection, its order or its limits brings it to the stage
of shaping, where nothing else has to be checked. -/
theorem shape (hq : q.Invariant) (h : q.stage ≠ .joining) (projection : Option Projection)
    (order : List OrderTerm) (limit offset : Option UInt64)
    (hprojection : ∀ p ∈ projection, ∀ leaf ∈ p.leaves, leaf.2.InScope q.tables)
    (horder : ∀ t ∈ order, ∀ c, t.key = .column c → c.InScope q.tables) :
    Invariant { q with projection, order, limit, offset, stage := .shaping } :=
  { hq with
    last_condition := fun j hj => by simpa [h] using hq.last_condition j hj
    joins_eq_nil := by simp
    joins_ne_nil := by simp
    filtered := by simp
    shaped := by simp
    projection_inScope := hprojection
    order_inScope := horder }

theorem thenBy {t : OrderTerm} (hq : q.Invariant) (h : q.thenBy t = .ok r) : r.Invariant := by
  obtain ⟨horder, ht, rfl⟩ := thenBy_eq_ok.1 h
  -- the operation checks no stage, but where there is an order there is shaping
  have hstage := hq.shaped (.inr (.inl horder))
  refine { hq with shaped := fun _ => hstage, order_inScope := fun t' ht' c hc => ?_ }
  rcases List.mem_append.1 ht' with ht' | ht'
  · exact hq.order_inScope t' ht' c hc
  · obtain rfl := List.mem_singleton.1 ht'
    exact inScope_of_ensureTerm ht hc

/-- Every operation preserves the invariant. -/
theorem apply {s : Step} (hq : q.Invariant) (h : q.apply s = .ok r) : r.Invariant := by
  cases s with
  | restrict c => exact hq.restrict h
  | joinOn c => exact hq.joinOn h
  | and c => exact hq.extendPredicate h
  | or c => exact hq.extendPredicate h
  | join kind t => exact hq.join h
  -- what shapes a query is checked for its columns, and the rest of the shape is as before
  | select p =>
    obtain ⟨hstage, hp, rfl⟩ := select_eq_ok.1 h
    refine hq.shape hstage (some p) [] none none ?_ (by simp)
    rintro _ ⟨⟩
    exact inScope_of_checkProjection hp
  | orderBy t =>
    obtain ⟨hstage, ht, rfl⟩ := orderBy_eq_ok.1 h
    refine hq.shape hstage q.projection [t] q.limit q.offset hq.projection_inScope ?_
    intro t' ht' c hc
    obtain rfl := List.mem_singleton.1 ht'
    exact inScope_of_ensureTerm ht hc
  | thenBy t => exact hq.thenBy h
  | take n =>
    obtain ⟨hstage, rfl⟩ := take_eq_ok.1 h
    exact hq.shape hstage q.projection q.order (some n) q.offset hq.projection_inScope
      hq.order_inScope
  | skip n =>
    obtain ⟨hstage, rfl⟩ := skip_eq_ok.1 h
    exact hq.shape hstage q.projection q.order q.limit (some n) hq.projection_inScope
      hq.order_inScope
  | paginate page =>
    obtain ⟨hstage, rfl⟩ := paginate_eq_ok.1 h
    exact hq.shape hstage q.projection q.order (some page.limit) (some page.offset)
      hq.projection_inScope hq.order_inScope

end Invariant

/-! ### Shaping -/

/-- Whether an operation is about the shape of a query. -/
def Step.isShaping : Step → Bool
  | select _ | orderBy _ | thenBy _ | take _ | skip _ | paginate _ => true
  | _ => false

/-- Shaping changes the shape and nothing else, and not while a join waits for its condition. -/
theorem shape_of_apply {s : Step} (hq : q.Invariant) (hs : s.isShaping) (h : q.apply s = .ok r) :
    q.stage ≠ .joining ∧ ∃ projection order limit offset,
      r = { q with projection, order, limit, offset, stage := .shaping } := by
  cases s with
  | restrict c | joinOn c | and c | or c | join kind t => exact absurd hs (by simp [Step.isShaping])
  | select p =>
    obtain ⟨hstage, -, rfl⟩ := select_eq_ok.1 h
    exact ⟨hstage, _, _, _, _, rfl⟩
  | orderBy t =>
    obtain ⟨hstage, -, rfl⟩ := orderBy_eq_ok.1 h
    exact ⟨hstage, _, _, _, _, rfl⟩
  | thenBy t =>
    obtain ⟨horder, -, rfl⟩ := thenBy_eq_ok.1 h
    -- an order shows that the query is shaped already
    have hstage := hq.shaped (.inr (.inl horder))
    exact ⟨by simp [hstage], q.projection, q.order ++ [t], q.limit, q.offset, by rw [← hstage]⟩
  | take n =>
    obtain ⟨hstage, rfl⟩ := take_eq_ok.1 h
    exact ⟨hstage, _, _, _, _, rfl⟩
  | skip n =>
    obtain ⟨hstage, rfl⟩ := skip_eq_ok.1 h
    exact ⟨hstage, _, _, _, _, rfl⟩
  | paginate page =>
    obtain ⟨hstage, rfl⟩ := paginate_eq_ok.1 h
    exact ⟨hstage, _, _, _, _, rfl⟩

/-! ### Lists of operations -/

/-- Conditions and joins come before shaping, and everything else leads to it or stays in it. -/
theorem shaping_of_apply {s : Step} (hstage : q.stage = .shaping) (h : q.apply s = .ok r) :
    r.stage = .shaping := by
  cases s with
  | restrict c =>
    obtain ⟨hearly, -⟩ := restrict_eq_ok.1 h
    simp [hstage] at hearly
  | joinOn c =>
    obtain ⟨hearly, -⟩ := joinOn_eq_ok.1 h
    simp [hstage] at hearly
  | and c | or c =>
    obtain ⟨hearly, -⟩ := extendPredicate_eq_ok.1 h
    simp [hstage] at hearly
  | join kind t =>
    obtain ⟨hearly, -⟩ := join_eq_ok.1 h
    simp [hstage] at hearly
  | select p =>
    obtain ⟨-, -, rfl⟩ := select_eq_ok.1 h
    rfl
  | orderBy t =>
    obtain ⟨-, -, rfl⟩ := orderBy_eq_ok.1 h
    rfl
  | thenBy t =>
    obtain ⟨-, -, rfl⟩ := thenBy_eq_ok.1 h
    exact hstage
  | take n =>
    obtain ⟨-, rfl⟩ := take_eq_ok.1 h
    rfl
  | skip n =>
    obtain ⟨-, rfl⟩ := skip_eq_ok.1 h
    rfl
  | paginate page =>
    obtain ⟨-, rfl⟩ := paginate_eq_ok.1 h
    rfl

theorem Invariant.run {steps : List Step} (hq : q.Invariant) (h : q.run steps = .ok r) :
    r.Invariant :=
  run_preserves (P := Invariant) (fun _ hs hq => hq.apply hs) h hq

/-- A query that waits for a condition has no order yet, so it takes no further term of one. -/
theorem Invariant.thenBy_eq_error (hq : q.Invariant) (h : q.stage = .joining) (t : OrderTerm) :
    q.thenBy t = .error (.misuse .thenByFirst) := by
  obtain ⟨-, horder, -, -⟩ := hq.unshaped (by simp [h])
  simp [Query.thenBy, horder]

/-- The invariant holds after every list of operations that are accepted one after the other, and
shaping is never left. So no statement has a join without a condition, a join condition is only
extended where there is a join, a query that waits for a condition refuses a further term of an
order, and a change that looks at neither projection nor order nor limits loses none of them. -/
theorem invariant_of_run {d : Dialect} {t : Table} {steps : List Step}
    (h : (ofTable d t).run steps = .ok q) :
    q.Invariant ∧
    (∀ (more : List Step) (r : Query), q.stage = .shaping → q.run more = .ok r →
      r.stage = .shaping) ∧
    (∀ r : Rendered, q.render = .ok r → ∀ j ∈ q.joins, j.condition.isSome) ∧
    (∀ sql : Sql, q.renderCount = .ok sql → ∀ j ∈ q.joins, j.condition.isSome) ∧
    (∀ (aliasName : String) (derived : Table), q.asTable aliasName = .ok derived →
      ∀ j ∈ q.joins, j.condition.isSome) ∧
    (q.stage = .joinFiltered → ∃ j, q.joins.getLast? = some j ∧ j.condition.isSome) ∧
    (q.stage = .joining → ∀ term : OrderTerm, q.thenBy term = .error (.misuse .thenByFirst)) ∧
    (∀ s : Statement, ((∃ assignments, q.update assignments = .ok s) ∨ q.delete = .ok s) →
      q.joins = [] ∧ q.projection = none ∧ q.order = [] ∧ q.limit = none ∧ q.offset = none) := by
  have hq : q.Invariant := (invariant_ofTable d t).run h
  refine ⟨hq, fun more r hstage hr => ?_, fun r hr => ?_, fun sql hr => ?_,
    fun aliasName derived hr => ?_, fun hstage => ?_, fun hstage term => ?_, fun s hs => ?_⟩
  · exact run_preserves (P := fun q => q.stage = .shaping)
      (fun _ hs hstage => shaping_of_apply hstage hs) hr hstage
  · exact hq.condition_isSome (render_eq_ok.1 hr).1
  · exact hq.condition_isSome (renderCount_eq_ok.1 hr).1
  · exact hq.condition_isSome (asTable_eq_ok.1 hr).1
  · have hne : q.joins ≠ [] := hq.joins_ne_nil (.inr hstage)
    exact ⟨_, List.getLast?_eq_some_getLast hne,
      hq.condition_isSome (by simp [hstage]) _ (List.getLast_mem hne)⟩
  · exact hq.thenBy_eq_error hstage term
  · have hok : q.stage ≠ .joining ∧ q.stage ≠ .shaping ∧ q.joins = [] ∧
        q.primary.origin.isSubquery = false := by
      rcases hs with ⟨assignments, hs⟩ | hs
      · exact (update_eq_ok.1 hs).1
      · exact (delete_eq_ok.1 hs).1
    exact ⟨hok.2.2.1, hq.unshaped hok.2.1⟩

/-- A query with two joins, each of which has a condition with an addition, up to its limit. -/
theorem invariant_of_run_two_joins :
    ∃ q : Query,
      (ofTable .sqlite ⟨"a", .path ["a"], [{ name := "x", type := .number }]⟩).run
        [.join .left ⟨"b", .path ["b"], [{ name := "x", type := .number }]⟩,
          .joinOn (.pattern []), .and (.predicate (.literal false)),
          .join .right ⟨"c", .path ["a"], [{ name := "y", type := .string }]⟩,
          .joinOn (.predicate (.literal true)), .or (.predicate (.literal false)),
          .restrict (.pattern []), .or (.predicate (.literal true)),
          .select (.object [("k", .column ⟨.path ["b"], "b", { name := "x", type := .number }⟩)]),
          .orderBy ⟨.column ⟨.path ["a"], "c", { name := "y", type := .string }⟩, none⟩,
          .thenBy ⟨.key "k", some .descending⟩, .take 3] = .ok q ∧
        q.Invariant ∧ (q.joins.length, q.order.length, q.filter.isSome) = (2, 2, true) :=
  Outcome.exists_ok_and (by decide +kernel) fun _ h => (invariant_of_run h).1

end Query

end Discography
