import Discography.Proofs.Query.Outline

/-!
# Outlines of operations

Every check of an operation on a query compares names with each other, and none looks into a
literal. So an operation is accepted under an injective renaming when it is accepted without it, and
leads to the renamed query.

## Main definitions

* `Condition.outline`, `Query.Step.outline`: conditions and operations with renamed names and with
  one literal of each kind

## Main results

* `Condition.resolve_outline`: conditions
* `Query.apply_outline`, `Query.run_outline`: operations
-/

namespace Discography

variable {g : String → String}

/-! ### Conditions -/

mutual

/-- The entry with renamed names and with one literal of each kind. -/
def Entry.outline (g : String → String) : Entry → Entry
  | .field columnName value => .field (g columnName) (value.outline g)
  | .table aliasName entries => .table (g aliasName) (Entry.outlineEntries g entries)

/-- The outlines of the entries of a pattern. -/
def Entry.outlineEntries (g : String → String) : List Entry → List Entry
  | [] => []
  | entry :: rest => entry.outline g :: Entry.outlineEntries g rest

end

/-- The condition with renamed names and with one literal of each kind. -/
def Condition.outline (g : String → String) : Condition → Condition
  | pattern entries => pattern (Entry.outlineEntries g entries)
  | comparison left op right => comparison (left.outline g) op (right.outline g)
  | predicate p => predicate (p.outline g)

/-- The table of an alias under an injective renaming. -/
theorem find?_outline (hg : g.Injective) (scope : List Table) (aliasName : String) :
    (scope.map (Table.outline g)).find? (·.aliasName = g aliasName) =
      (scope.find? (·.aliasName = aliasName)).map (Table.outline g) := by
  induction scope with
  | nil => rfl
  | cons t scope ih =>
    rw [List.map_cons, List.find?_cons, List.find?_cons, ih]
    by_cases h : t.aliasName = aliasName <;> simp [hg.eq_iff, h]

theorem filterMap_column?_outline (hg : g.Injective) (scope : List Table) (columnName : String) :
    (scope.map (Table.outline g)).filterMap (·.column? (g columnName)) =
      (scope.filterMap (·.column? columnName)).map (Column.outline g) := by
  rw [List.filterMap_map, List.map_filterMap]
  exact List.filterMap_congr fun t _ => t.column?_outline hg columnName

theorem Table.column_outline (hg : g.Injective) (t : Table) (columnName : String) :
    ((t.outline g).column (g columnName)).toOption =
      (t.column columnName).toOption.map (Column.outline g) := by
  rw [column, column, t.column?_outline hg]
  cases t.column? columnName <;> rfl

theorem resolveColumn_outline (hg : g.Injective) (scope : List Table) (columnName : String) :
    (resolveColumn (scope.map (Table.outline g)) (g columnName)).toOption =
      (resolveColumn scope columnName).toOption.map (Column.outline g) := by
  match scope with
  | [] => rfl
  | [t] => exact t.column_outline hg columnName
  | t :: t' :: scope =>
    -- among several tables, one and only one may have the column
    have hcolumns := filterMap_column?_outline hg (t :: t' :: scope) columnName
    simp only [List.map_cons] at hcolumns
    simp only [resolveColumn, List.map_cons, hcolumns]
    generalize (t :: t' :: scope).filterMap (·.column? columnName) = columns
    rcases columns with _ | ⟨c, _ | ⟨c', columns⟩⟩ <;> rfl

namespace Pattern

mutual

theorem entryComparisons_outline (hg : g.Injective) : ∀ (scope : List Table) (entry : Entry),
    (entryComparisons (scope.map (Table.outline g)) (entry.outline g)).toOption =
      (entryComparisons scope entry).toOption.map (List.map (Predicate.outline g))
  | scope, .field columnName value => by
    simp only [Entry.outline, entryComparisons, Outcome.toOption_bind, Outcome.toOption_pure,
      resolveColumn_outline hg]
    cases (resolveColumn scope columnName).toOption <;> rfl
  | scope, .table aliasName entries => by
    simp only [Entry.outline, entryComparisons, find?_outline hg]
    cases scope.find? (·.aliasName = aliasName) with
    | none => rfl
    | some t => exact comparisons_outline hg [t] entries

theorem comparisons_outline (hg : g.Injective) : ∀ (scope : List Table) (entries : List Entry),
    (comparisons (scope.map (Table.outline g)) (Entry.outlineEntries g entries)).toOption =
      (comparisons scope entries).toOption.map (List.map (Predicate.outline g))
  | _, [] => rfl
  | scope, entry :: rest => by
    simp only [Entry.outlineEntries, comparisons, Outcome.toOption_bind, Outcome.toOption_pure,
      entryComparisons_outline hg scope entry, comparisons_outline hg scope rest]
    cases (entryComparisons scope entry).toOption <;> cases (comparisons scope rest).toOption <;>
      simp

end

end Pattern

/-- A condition has a predicate under every injective renaming, or under none. -/
theorem Condition.resolve_outline (hg : g.Injective) (c : Condition) (scope : List Table)
    {p : Option Predicate} :
    (c.outline g).resolve (scope.map (Table.outline g)) = .ok p ↔
      ∃ p', c.resolve scope = .ok p' ∧ p'.map (Predicate.outline g) = p := by
  -- a refusal names the column it is about, so it is the successes that are compared
  have hoption : ((c.outline g).resolve (scope.map (Table.outline g))).toOption =
      (c.resolve scope).toOption.map (Option.map (Predicate.outline g)) := by
    cases c with
    | pattern entries =>
      simp only [outline, resolve, Outcome.toOption_map, Pattern.comparisons_outline hg]
      cases (Pattern.comparisons scope entries).toOption <;> simp [Predicate.all_outline]
    | comparison left op right =>
      simp only [outline, resolve, Predicate.comparing, Outcome.toOption_map]
      cases (Operator.parse op).toOption <;> rfl
    | predicate p => rfl
  rw [← Outcome.toOption_eq_some, hoption]
  simp

namespace Query

variable {q r : Query}

/-! ### Checks -/

theorem table?_outline (hg : g.Injective) (q : Query) (aliasName : String) :
    (q.outline g).table? (g aliasName) = (q.table? aliasName).map (Table.outline g) := by
  rw [table?, table?, tables_outline, find?_outline hg]

theorem ensureInScope_outline (hg : g.Injective) (q : Query) (c : Column) :
    (q.outline g).ensureInScope (c.outline g) = .ok () ↔ q.ensureInScope c = .ok () := by
  rw [ensureInScope_eq_ok, ensureInScope_eq_ok]
  simp only [Column.outline, Attribute.outline, Column.name, table?_outline hg, Option.mem_def,
    Option.map_eq_some_iff]
  constructor
  · rintro ⟨_, ⟨t, ht, rfl⟩, hc⟩
    exact ⟨t, ht, by simpa [t.column?_outline hg] using hc⟩
  · rintro ⟨t, ht, hc⟩
    exact ⟨_, ⟨t, ht, rfl⟩, by simpa [t.column?_outline hg] using hc⟩

mutual

theorem checkProjection_outline (hg : g.Injective) (q : Query) : ∀ p : Projection,
    (q.outline g).checkProjection (p.outline g) = .ok () ↔ q.checkProjection p = .ok ()
  | .column c => ensureInScope_outline hg q c
  | .object [] => by simp [Projection.outline, Projection.outlineFields, checkProjection]
  | .object (field :: fields) => checkFields_outline hg q [] (field :: fields)

theorem checkFields_outline (hg : g.Injective) (q : Query) :
    ∀ (seen : List String) (fields : List (String × Projection)),
      (q.outline g).checkFields (seen.map g) (Projection.outlineFields g fields) = .ok () ↔
        q.checkFields seen fields = .ok ()
  | _, [] => by simp [Projection.outlineFields, checkFields]
  | seen, (key, p) :: rest => by
    have hp := checkProjection_outline hg q p
    have hrest := checkFields_outline hg q (seen ++ [key]) rest
    rw [List.map_append, List.map_cons, List.map_nil] at hrest
    rw [Projection.outlineFields, checkFields, checkFields]
    -- a key is a repeated one under the renaming where it is one without it
    by_cases h : key ∈ seen
    · simp [h, List.mem_map_of_injective hg]
    · simp only [List.mem_map_of_injective hg, h, if_false, Outcome.bind_eq_ok]
      constructor
      · rintro ⟨_, h, h'⟩
        exact ⟨(), hp.1 h, hrest.1 h'⟩
      · rintro ⟨_, h, h'⟩
        exact ⟨(), hp.2 h, hrest.2 h'⟩

end

theorem ensureTerm_outline (hg : g.Injective) (q : Query) (t : OrderTerm) :
    (q.outline g).ensureTerm (t.outline g) = .ok () ↔ q.ensureTerm t = .ok () := by
  obtain ⟨_ | _, _⟩ := t
  · exact ensureInScope_outline hg q _
  · simp [ensureTerm, OrderTerm.outline]

/-! ### Operations -/

theorem setCondition_outline (g : String → String) (condition : Option Predicate) :
    ∀ joins : List Join, setCondition (condition.map (Predicate.outline g))
      (joins.map (Join.outline g)) = (setCondition condition joins).map (Join.outline g)
  | [] => rfl
  | [_] => rfl
  | j :: j' :: joins => by
    have ih := setCondition_outline g condition (j' :: joins)
    simp only [List.map_cons, setCondition] at ih ⊢
    rw [ih]

theorem combined_outline (g : String → String) (c : Connective) (present : Option Predicate)
    (addition : Predicate) :
    combined (Predicate.extend c) (present.map (Predicate.outline g)) (addition.outline g) =
      (combined (Predicate.extend c) present addition).map (Predicate.outline g) := by
  cases present with
  | none => rfl
  | some p => simp [combined, Predicate.extend_outline]

/-- The operation with renamed names and with one literal of each kind. -/
def Step.outline (g : String → String) : Step → Step
  | restrict c => restrict (c.outline g)
  | joinOn c => joinOn (c.outline g)
  | and c => and (c.outline g)
  | or c => or (c.outline g)
  | join kind t => join kind (t.outline g)
  | select p => select (p.outline g)
  | orderBy t => orderBy (t.outline g)
  | thenBy t => thenBy (t.outline g)
  | take _ => take 0
  | skip _ => skip 0
  | paginate _ => paginate ⟨0, 0⟩

theorem restrict_outline (hg : g.Injective) {c : Condition} {r : Query} :
    (q.outline g).restrict (c.outline g) = .ok r ↔
      ∃ r', q.restrict c = .ok r' ∧ r'.outline g = r := by
  simp only [restrict_eq_ok, stage_outline, tables_outline, c.resolve_outline hg]
  constructor
  · rintro ⟨hstage, _, ⟨p, hp, rfl⟩, rfl⟩
    exact ⟨_, ⟨hstage, p, hp, rfl⟩, rfl⟩
  · rintro ⟨_, ⟨hstage, p, hp, rfl⟩, rfl⟩
    exact ⟨hstage, _, ⟨p, hp, rfl⟩, rfl⟩

theorem joinOn_outline (hg : g.Injective) {c : Condition} {r : Query} :
    (q.outline g).joinOn (c.outline g) = .ok r ↔ ∃ r', q.joinOn c = .ok r' ∧ r'.outline g = r := by
  have hset : ∀ p : Option Predicate, setCondition
      (some ((p.map (Predicate.outline g)).getD (.literal true))) (q.joins.map (Join.outline g)) =
        (setCondition (some (p.getD (.literal true))) q.joins).map (Join.outline g) := by
    intro p
    rw [← setCondition_outline]
    cases p <;> rfl
  simp only [joinOn_eq_ok, stage_outline, tables_outline, joins_outline, c.resolve_outline hg]
  constructor
  · rintro ⟨hstage, _, ⟨p, hp, rfl⟩, rfl⟩
    exact ⟨_, ⟨hstage, p, hp, rfl⟩, by rw [hset]; rfl⟩
  · rintro ⟨_, ⟨hstage, p, hp, rfl⟩, rfl⟩
    exact ⟨hstage, _, ⟨p, hp, rfl⟩, by rw [hset]; rfl⟩

theorem extendPredicate_outline (hg : g.Injective) {op : Operation} (connective : Connective)
    {c : Condition} {r : Query} :
    (q.outline g).extendPredicate op (Predicate.extend connective) (c.outline g) = .ok r ↔
      ∃ r', q.extendPredicate op (Predicate.extend connective) c = .ok r' ∧ r'.outline g = r := by
  have hjoin : ∀ (j : Join) (a : Predicate),
      setCondition (combined (Predicate.extend connective) (j.outline g).condition (a.outline g))
          (q.joins.map (Join.outline g)) =
        (setCondition (combined (Predicate.extend connective) j.condition a) q.joins).map
          (Join.outline g) := by
    intro j a
    rw [← setCondition_outline, ← combined_outline]
    rfl
  simp only [extendPredicate_eq_ok, stage_outline, tables_outline, joins_outline, filter_outline,
    c.resolve_outline hg, List.getLast?_map, Option.map_eq_some_iff]
  constructor
  · rintro ⟨hstage, _, ⟨p, hp, rfl⟩, h⟩
    -- a pattern without entries has no predicate, also after the renaming
    cases p with
    | none =>
      obtain ⟨-, rfl⟩ | ⟨a, h, -⟩ := h
      · exact ⟨q, ⟨hstage, none, hp, .inl ⟨rfl, rfl⟩⟩, rfl⟩
      · exact absurd h (by simp)
    | some a =>
      obtain ⟨h, -⟩ | ⟨_, ⟨⟩, ⟨hwhere, rfl⟩ | ⟨hon, _, ⟨j, hj, rfl⟩, rfl⟩⟩ := h
      · exact absurd h (by simp)
      · exact ⟨_, ⟨hstage, some a, hp, .inr ⟨a, rfl, .inl ⟨hwhere, rfl⟩⟩⟩,
          by rw [combined_outline]; rfl⟩
      · exact ⟨_, ⟨hstage, some a, hp, .inr ⟨a, rfl, .inr ⟨hon, j, hj, rfl⟩⟩⟩,
          by rw [hjoin]; rfl⟩
  · rintro ⟨r', ⟨hstage, p, hp, h⟩, rfl⟩
    refine ⟨hstage, _, ⟨p, hp, rfl⟩, ?_⟩
    obtain ⟨rfl, rfl⟩ | ⟨a, rfl, ⟨hwhere, rfl⟩ | ⟨hon, j, hj, rfl⟩⟩ := h
    · exact .inl ⟨rfl, rfl⟩
    · exact .inr ⟨_, rfl, .inl ⟨hwhere, by rw [combined_outline]; rfl⟩⟩
    · exact .inr ⟨_, rfl, .inr ⟨hon, _, ⟨j, hj, rfl⟩, by rw [hjoin]; rfl⟩⟩

theorem join_outline (hg : g.Injective) {kind : JoinKind} {t : Table} {r : Query} :
    (q.outline g).join kind (t.outline g) = .ok r ↔
      ∃ r', q.join kind t = .ok r' ∧ r'.outline g = r := by
  -- an alias is taken after the renaming where it is taken before
  have haliases : g t.aliasName ∈ (q.tables.map (Table.outline g)).map (·.aliasName) ↔
      t.aliasName ∈ q.tables.map (·.aliasName) := by
    have hmap : (q.tables.map (Table.outline g)).map (·.aliasName) =
        (q.tables.map (·.aliasName)).map g := by
      rw [List.map_map, List.map_map]
      rfl
    rw [hmap, List.mem_map_of_injective hg]
  have hattributes : (t.outline g).attributes = [] ↔ t.attributes = [] := List.map_eq_nil_iff
  simp only [join_eq_ok, stage_outline, tables_outline, Table.aliasName_outline, haliases,
    hattributes, ne_eq]
  constructor
  · rintro ⟨hstage, hfresh, ht, rfl⟩
    exact ⟨_, ⟨hstage, hfresh, ht, rfl⟩, by simp [outline, Join.outline]⟩
  · rintro ⟨_, ⟨hstage, hfresh, ht, rfl⟩, rfl⟩
    exact ⟨hstage, hfresh, ht, by simp [outline, Join.outline]⟩

/-- An operation is accepted under every injective renaming, or under none, and its results differ
by the renaming. -/
theorem apply_outline (hg : g.Injective) (s : Step) {r : Query} :
    (q.outline g).apply (s.outline g) = .ok r ↔ ∃ r', q.apply s = .ok r' ∧ r'.outline g = r := by
  -- there is an order to extend or there is none, whatever its terms are called
  have hempty : q.order.map (OrderTerm.outline g) = [] ↔ q.order = [] := List.map_eq_nil_iff
  cases s with
  | restrict c => exact restrict_outline hg
  | joinOn c => exact joinOn_outline hg
  | and c => exact extendPredicate_outline hg .and
  | or c => exact extendPredicate_outline hg .or
  | join kind t => exact join_outline hg
  | select p =>
    simp only [apply, Step.outline, select_eq_ok, stage_outline, checkProjection_outline hg]
    constructor
    · rintro ⟨hstage, hp, rfl⟩
      exact ⟨_, ⟨hstage, hp, rfl⟩, rfl⟩
    · rintro ⟨_, ⟨hstage, hp, rfl⟩, rfl⟩
      exact ⟨hstage, hp, rfl⟩
  | orderBy t =>
    simp only [apply, Step.outline, orderBy_eq_ok, stage_outline, ensureTerm_outline hg]
    constructor
    · rintro ⟨hstage, ht, rfl⟩
      exact ⟨_, ⟨hstage, ht, rfl⟩, rfl⟩
    · rintro ⟨_, ⟨hstage, ht, rfl⟩, rfl⟩
      exact ⟨hstage, ht, rfl⟩
  | thenBy t =>
    simp only [apply, Step.outline, thenBy_eq_ok, order_outline, ensureTerm_outline hg, ne_eq,
      hempty]
    constructor
    · rintro ⟨horder, ht, rfl⟩
      exact ⟨_, ⟨horder, ht, rfl⟩, by simp [outline]⟩
    · rintro ⟨_, ⟨horder, ht, rfl⟩, rfl⟩
      exact ⟨horder, ht, by simp [outline]⟩
  | take n =>
    simp only [apply, Step.outline, take_eq_ok, stage_outline, and_assoc, exists_and_left]
    exact and_congr_right fun _ => by simp [outline, eq_comm]
  | skip n =>
    simp only [apply, Step.outline, skip_eq_ok, stage_outline, and_assoc, exists_and_left]
    exact and_congr_right fun _ => by simp [outline, eq_comm]
  | paginate page =>
    have hlimit : (⟨0, 0⟩ : PageRequest).limit = 0 := rfl
    have hoffset : (⟨0, 0⟩ : PageRequest).offset = 0 := rfl
    simp only [apply, Step.outline, paginate_eq_ok, stage_outline, and_assoc, exists_and_left,
      hlimit, hoffset]
    exact and_congr_right fun _ => by simp [outline, eq_comm]

/-- So does a list of operations. -/
theorem run_outline (hg : g.Injective) (steps : List Step) {r : Query} :
    (q.outline g).run (steps.map (Step.outline g)) = .ok r ↔
      ∃ r', q.run steps = .ok r' ∧ r'.outline g = r := by
  induction steps generalizing q with
  | nil => simp [run_nil]
  | cons s steps ih =>
    simp only [List.map_cons, run_cons, apply_outline hg]
    -- each operation leads to an outline, so the next one starts from one
    constructor
    · rintro ⟨_, ⟨q', hs, rfl⟩, hrest⟩
      obtain ⟨r', hr', rfl⟩ := ih.1 hrest
      exact ⟨r', ⟨q', hs, hr'⟩, rfl⟩
    · rintro ⟨r', ⟨q', hs, hr'⟩, rfl⟩
      exact ⟨_, ⟨q', hs, rfl⟩, ih.2 ⟨r', hr', rfl⟩⟩

end Query

end Discography
