import Discography.Proofs.Query.Acceptable
import Discography.Proofs.Query.ScopedQuery

/-!
# Operations keep columns in scope

Whether a column is in scope is checked at different moments: for the columns of a pattern when it
is resolved, for those of projections and orders at the call, and for the columns of a query that is
used as a table when the table is made. Joins that come later and other aliases do not undo any of
this, so the columns of a query stay in scope, each where it stands.

## Main definitions

* `Condition.InScope`: the columns that a caller writes into a condition are in scope
* `Query.Step.condition?`: the condition that an operation is about

## Main results

* `Condition.InScope.of_resolve`: the columns in the predicate of a condition are in scope
* `Query.Scoped.distinctKeys`: the keys of a projection are distinct
* `Query.Scoped.apply`, `Query.Scoped.asTable`: operations, and queries as tables
-/

namespace Discography

variable {declared : Table → Prop}

/-! ### Conditions -/

/-- Every column that the caller writes into the condition is in scope. -/
def Condition.InScope (scope : List Table) (c : Condition) : Prop :=
  ∀ column ∈ c.columns, column.InScope scope

theorem inScope_of_resolveColumn {scope : List Table} {name : String} {c : Column}
    (h : resolveColumn scope name = .ok c) : c.InScope scope := by
  have hcolumn : ∀ t ∈ scope, t.column? name = some c → c.InScope scope := by
    intro t ht hc
    obtain ⟨a, ha, rfl⟩ := Option.map_eq_some_iff.mp hc
    exact ⟨t, ht, rfl, a, List.mem_of_find?_eq_some ha, rfl⟩
  unfold resolveColumn at h
  split at h
  · rename_i t
    refine hcolumn t (List.mem_singleton_self t) ?_
    rw [Table.column] at h
    cases hc : t.column? name with
    | none => simp [hc] at h
    | some c' => simpa [hc] using h
  · split at h
    · rename_i c' hc
      obtain rfl := Except.ok.inj h
      obtain ⟨t, ht, hcolumn'⟩ := List.mem_filterMap.mp (hc ▸ List.mem_singleton_self c')
      exact hcolumn t ht hcolumn'
    · cases h
    · cases h

namespace Pattern

mutual

/-- The comparisons of an entry are about columns in scope. -/
theorem inScope_of_entryComparisons : ∀ {entry : Entry} {scope outer : List Table}
    {ps : List Predicate}, scope ⊆ outer → (∀ c ∈ entry.columns, c.InScope outer) →
      entryComparisons scope entry = .ok ps → ∀ p ∈ ps, ∀ c ∈ p.columns, c.InScope outer
  | .field name value, scope, outer, ps, hsubset, hvalue, h => by
    rw [entryComparisons] at h
    obtain ⟨column, hcolumn, hps⟩ := Outcome.bind_eq_ok.mp h
    obtain rfl := Except.ok.inj hps
    refine List.forall_mem_singleton.mpr (List.forall_mem_append.mpr ⟨?_, hvalue⟩)
    exact List.forall_mem_singleton.mpr ((inScope_of_resolveColumn hcolumn).mono hsubset)
  | .table aliasName entries, scope, outer, ps, hsubset, hvalue, h => by
    rw [entryComparisons] at h
    split at h
    · rename_i t ht
      have hmem : t ∈ outer := hsubset (List.mem_of_find?_eq_some ht)
      exact inScope_of_comparisons (by simpa using hmem) hvalue h
    · cases h

theorem inScope_of_comparisons : ∀ {entries : List Entry} {scope outer : List Table}
    {ps : List Predicate}, scope ⊆ outer → (∀ c ∈ Entry.entriesColumns entries, c.InScope outer) →
      comparisons scope entries = .ok ps → ∀ p ∈ ps, ∀ c ∈ p.columns, c.InScope outer
  | [], _, _, _, _, _, h => by
    obtain rfl := Except.ok.inj h
    exact nofun
  | entry :: rest, scope, outer, ps, hsubset, hvalue, h => by
    rw [comparisons] at h
    obtain ⟨first, hfirst, h⟩ := Outcome.bind_eq_ok.mp h
    obtain ⟨others, hothers, hps⟩ := Outcome.bind_eq_ok.mp h
    obtain rfl := Except.ok.inj hps
    obtain ⟨hentry, hrest⟩ := List.forall_mem_append.mp hvalue
    exact List.forall_mem_append.mpr ⟨inScope_of_entryComparisons hsubset hentry hfirst,
      inScope_of_comparisons hsubset hrest hothers⟩

end

end Pattern

/-- The columns in the predicate of a condition are in scope. -/
theorem Condition.InScope.of_resolve {scope : List Table} {c : Condition} (hc : c.InScope scope)
    {p : Predicate} (h : c.resolve scope = .ok (some p)) :
    ∀ column ∈ p.columns, column.InScope scope := by
  cases c with
  | pattern entries =>
    obtain ⟨ps, hps, hp⟩ := Outcome.map_eq_ok.mp h
    rw [Predicate.columns_all hp]
    exact List.forall_mem_flatMap.mpr
      (Pattern.inScope_of_comparisons (List.Subset.refl _) hc hps)
  | comparison left op right =>
    obtain ⟨p', hp', hp⟩ := Outcome.map_eq_ok.mp h
    obtain ⟨op', -, rfl⟩ := Outcome.map_eq_ok.mp hp'
    obtain rfl := Option.some.inj hp
    exact hc
  | predicate p' =>
    obtain rfl := Option.some.inj (Except.ok.inj h)
    exact hc

namespace Query

variable {d : Dialect} {q r : Query}

/-! ### Projections -/

mutual

/-- A projection that a query accepts has distinct keys. -/
theorem distinctKeys_of_checkProjection : ∀ {p : Projection}, q.checkProjection p = .ok () →
    p.DistinctKeys
  | .column c, _ => .column c
  | .object [], h => by cases h
  | .object (field :: fields), h => by
    rw [checkProjection] at h
    obtain ⟨hnodup, -, hinside⟩ := distinctKeys_of_checkFields h
    exact .object hnodup hinside

theorem distinctKeys_of_checkFields : ∀ {fields : List (String × Projection)} {seen : List String},
    q.checkFields seen fields = .ok () → (fields.map Prod.fst).Nodup ∧
      (∀ field ∈ fields, field.1 ∉ seen) ∧ ∀ field ∈ fields, field.2.DistinctKeys
  | [], _, _ => ⟨List.nodup_nil, nofun, nofun⟩
  | (key, p) :: rest, seen, h => by
    rw [checkFields] at h
    split at h
    · cases h
    · rename_i hkey
      obtain ⟨_, hp, hrest⟩ := Outcome.bind_eq_ok.mp h
      obtain ⟨hnodup, hseen, hinside⟩ := distinctKeys_of_checkFields hrest
      have hfresh : key ∉ rest.map Prod.fst := by
        intro hmem
        obtain ⟨field, hfield, rfl⟩ := List.mem_map.mp hmem
        exact hseen field hfield (by simp)
      exact ⟨List.nodup_cons.mpr ⟨hfresh, hnodup⟩,
        List.forall_mem_cons.mpr ⟨hkey, fun field hfield hmem =>
          hseen field hfield (List.mem_append_left _ hmem)⟩,
        List.forall_mem_cons.mpr ⟨distinctKeys_of_checkProjection hp, hinside⟩⟩

end

theorem distinctKeys_table {t : Table} (h : (t.attributes.map (·.name)).Nodup) :
    (Projection.table t).DistinctKeys := by
  refine .object ?_ (List.forall_mem_map.mpr fun c _ => .column c)
  simpa [Table.columns, Table.columnOf, Function.comp_def] using h

/-- The projection of a query has distinct keys, whether it was given or not. -/
theorem Scoped.distinctKeys (hq : q.Scoped declared) : q.effectiveProjection.DistinctKeys := by
  have htable : ∀ t ∈ q.tables, (Projection.table t).DistinctKeys := fun t ht =>
    distinctKeys_table (hq.tables t ht).nodup
  rw [effectiveProjection]
  split
  · rename_i p hp
    exact hq.keys p hp
  · split
    · exact htable q.primary List.mem_cons_self
    · refine .object ?_ (List.forall_mem_map.mpr htable)
      simpa [Function.comp_def] using hq.invariant.nodup_aliases

/-! ### Operations -/

theorem joinsInScope_concat {tables : List Table} {joins : List Join} {j : Join} :
    JoinsInScope tables (joins ++ [j]) ↔ JoinsInScope tables joins ∧
      ∀ p ∈ j.condition, ∀ c ∈ p.columns,
        c.InScope (tables ++ (joins ++ [j]).map (·.table)) := by
  induction joins generalizing tables with
  | nil => simp [JoinsInScope]
  | cons first joins ih => simp [JoinsInScope, ih, and_assoc]

theorem joinsInScope_setCondition {tables : List Table} {joins : List Join}
    (h : JoinsInScope tables joins) {condition : Option Predicate}
    (hcondition : ∀ p ∈ condition, ∀ c ∈ p.columns, c.InScope (tables ++ joins.map (·.table))) :
    JoinsInScope tables (setCondition condition joins) := by
  rcases List.eq_nil_or_concat' joins with rfl | ⟨joins, j, rfl⟩
  · exact h
  · rw [setCondition_concat, joinsInScope_concat]
    exact ⟨(joinsInScope_concat.mp h).1, by simpa using hcondition⟩

/-- The columns in the condition of the last join are in scope. -/
theorem Scoped.inScope_of_last (hq : q.Scoped declared) {j : Join}
    (hj : q.joins.getLast? = some j) : ∀ p ∈ j.condition, ∀ c ∈ p.columns, c.InScope q.tables := by
  obtain ⟨joins, hjoins⟩ := List.getLast?_eq_some_iff.mp hj
  have hscoped := hq.joins
  rw [hjoins, joinsInScope_concat, ← hjoins] at hscoped
  exact hscoped.2

/-- Setting the filter or the condition of the last join keeps columns in scope. -/
theorem Scoped.extendPredicate {op : Operation} {combine : Predicate → Predicate → Predicate}
    {c : Condition} (hq : q.Scoped declared)
    (hcombine : ∀ p p', (combine p p').columns = p.columns ++ p'.columns) (hc : c.InScope q.tables)
    (h : q.extendPredicate op combine c = .ok r) :
    JoinsInScope [r.primary] r.joins ∧ ∀ p ∈ r.filter, ∀ c ∈ p.columns, c.InScope r.tables := by
  have hboth : ∀ p p' : Predicate, (∀ c ∈ p.columns, c.InScope q.tables) →
      (∀ c ∈ p'.columns, c.InScope q.tables) →
      ∀ c ∈ (combine p p').columns, c.InScope q.tables := by
    intro p p' hp hp'
    rw [hcombine]
    exact List.forall_mem_append.mpr ⟨hp, hp'⟩
  obtain ⟨-, p, hp, ⟨-, rfl⟩ | ⟨a, rfl, ⟨-, rfl⟩ | ⟨-, j, hj, rfl⟩⟩⟩ := extendPredicate_eq_ok.mp h
  · exact ⟨hq.joins, hq.filter⟩
  · exact ⟨hq.joins, forall_mem_combined hboth hq.filter (hc.of_resolve hp)⟩
  · have hcondition := forall_mem_combined hboth (hq.inScope_of_last hj) (hc.of_resolve hp)
    refine ⟨joinsInScope_setCondition hq.joins hcondition, ?_⟩
    simpa [Query.tables] using hq.filter

end Query

/-- The condition that an operation is about. -/
def Query.Step.condition? : Query.Step → Option Condition
  | .restrict c | .joinOn c | .and c | .or c => some c
  | _ => none

namespace Query

variable {d : Dialect} {q r : Query}

/-- Columns stay in scope where they stand in conditions. -/
theorem Scoped.conditions_apply {s : Step} (hq : q.Scoped declared)
    (hcondition : ∀ c ∈ s.condition?, c.InScope q.tables) (h : q.apply s = .ok r) :
    JoinsInScope [r.primary] r.joins ∧ ∀ p ∈ r.filter, ∀ c ∈ p.columns, c.InScope r.tables := by
  cases s with
  | restrict c =>
    obtain ⟨-, filter, hfilter, rfl⟩ := restrict_eq_ok.mp h
    refine ⟨hq.joins, ?_⟩
    rintro p rfl
    exact (hcondition c rfl).of_resolve hfilter
  | joinOn c =>
    obtain ⟨-, condition, hresolve, rfl⟩ := joinOn_eq_ok.mp h
    have hcolumns : ∀ column ∈ (condition.getD (.literal true)).columns,
        column.InScope q.tables := by
      cases condition with
      | none => exact nofun
      | some p => exact (hcondition c rfl).of_resolve hresolve
    refine ⟨joinsInScope_setCondition hq.joins ?_, by simpa [Query.tables] using hq.filter⟩
    rintro _ ⟨⟩
    exact hcolumns
  | and c => exact hq.extendPredicate (Predicate.columns_extend .and) (hcondition c rfl) h
  | or c => exact hq.extendPredicate (Predicate.columns_extend .or) (hcondition c rfl) h
  | join kind t =>
    obtain ⟨-, -, -, rfl⟩ := join_eq_ok.mp h
    refine ⟨joinsInScope_concat.mpr ⟨hq.joins, nofun⟩, fun p hp c hc => ?_⟩
    refine (hq.filter p hp c hc).mono ?_
    simp [Query.tables]
  | select p | orderBy t | thenBy t | take n | skip n | paginate page =>
    obtain ⟨-, _, _, _, _, rfl⟩ := shape_of_apply hq.invariant rfl h
    exact ⟨hq.joins, hq.filter⟩

/-- A projection with distinct keys is replaced by such projections only. -/
theorem Scoped.keys_apply {s : Step} (hq : q.Scoped declared) (h : q.apply s = .ok r) :
    ∀ p ∈ r.projection, p.DistinctKeys := by
  rcases projection_of_apply h with hsame | ⟨p, hp, hselected⟩
  · rw [hsame]
    exact hq.keys
  · rw [hselected]
    rintro _ ⟨⟩
    exact distinctKeys_of_checkProjection hp

/-- An operation keeps columns in scope. -/
theorem Scoped.apply {s : Step} (hq : q.Scoped declared)
    (htables : ∀ t ∈ s.table?, t.Scoped declared)
    (hcondition : ∀ c ∈ s.condition?, c.InScope q.tables) (h : q.apply s = .ok r) :
    r.Scoped declared := by
  obtain ⟨hjoins, hfilter⟩ := hq.conditions_apply hcondition h
  refine ⟨hq.invariant.apply h, ?_, hq.keys_apply h, hjoins, hfilter⟩
  rw [(apply_frame h).2]
  exact List.forall_mem_append.mpr ⟨hq.tables, by simpa using htables⟩

theorem scoped_ofTable (d : Dialect) {t : Table} (ht : t.Scoped declared) :
    (ofTable d t).Scoped declared where
  invariant := invariant_ofTable d t
  tables := by simpa [Query.tables, ofTable] using ht
  keys := nofun
  joins := trivial
  filter := nofun

/-! ### Queries as tables -/

/-- An object without objects inside is the object of its columns. -/
theorem eq_columns_of_flat? {p : Projection} {columns : List (String × Column)}
    (h : p.flat? = some columns) : p = .object (columns.map fun (key, c) => (key, .column c)) := by
  cases p with
  | column c => cases h
  | object fields =>
    rw [Projection.flat?] at h
    congr 1
    induction fields generalizing columns with
    | nil =>
      obtain rfl := Option.some.inj h
      rfl
    | cons field fields ih =>
      obtain ⟨key, _ | inner⟩ := field
      · rw [List.mapM_cons] at h
        simp only [Option.bind_eq_bind, Option.bind_some, Option.bind_eq_some_iff,
          Option.pure_def, Option.some.injEq] at h
        obtain ⟨rest, hrest, rfl⟩ := h
        rw [List.map_cons, ← ih hrest]
      · simp at h

theorem leaves_of_flat? {p : Projection} {columns : List (String × Column)}
    (h : p.flat? = some columns) : p.leaves = columns.map fun (key, c) => ([key], c) := by
  rw [eq_columns_of_flat? h, Projection.leaves]
  clear h
  induction columns with
  | nil => rfl
  | cons column columns ih => simp [Projection.fieldLeaves, Projection.leaves, ih]

/-- A table of a query has the columns that the statement of the query names. -/
theorem Scoped.asTable (hq : q.Scoped declared) (hsound : q.Sound) (hd : q.dialect.PlainRows)
    {aliasName : String} {t : Table} (h : q.asTable aliasName = .ok t) : t.Scoped declared := by
  obtain ⟨-, columns, hflat, sql, hsql, rfl⟩ := asTable_eq_ok.mp h
  have hleaves := leaves_of_flat? hflat
  have hnames : (columns.map (derivedAttribute q.optionalAliases)).map (·.name) =
      columns.map Prod.fst := by
    rw [List.map_map]
    exact List.map_congr_left fun _ _ => rfl
  obtain ⟨ts, hnests, hstatement, hscoped, hinner, houtputs⟩ := hq.exists_wellScoped_selectTokens hd
  have houtputs : Nested.outputs ts = columns.map Prod.fst := by
    rw [houtputs, hleaves, List.filterMap_map]
    exact congrFun (List.filterMap_eq_map (f := Prod.fst)) columns
  constructor
  · rw [hnames]
    have hpaths := Projection.nodup_paths hq.distinctKeys
    rw [hleaves, List.map_map] at hpaths
    exact List.Nodup.of_map (fun key => [key]) (by simpa [Function.comp_def] using hpaths)
  · refine ⟨[.parens ts], ?_, by simp [Nested.IsPlain, Nested.clauseWord?], ?_, ?_⟩
    · rw [Origin.tokens, (writes_selectSql hsound hsql).tokens_eq]
      exact hnests.parens
    · rw [hnames, ← houtputs]
      exact .subquery hstatement
    · rw [Nested.InnerWellScoped, List.flatMap_singleton, Nested.statements_parens,
        if_pos hstatement]
      exact List.forall_mem_cons.mpr ⟨⟨_, hscoped⟩, hinner⟩

end Query

end Discography
