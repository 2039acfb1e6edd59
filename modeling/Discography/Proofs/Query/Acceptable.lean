import Discography.Proofs.Filter.Finite
import Discography.Proofs.Query.Additions
import Discography.Proofs.Query.JoinedRecord
import Discography.Proofs.Query.Reals

/-!
# Acceptable arguments

What the arguments of a call have to be for the tables in scope, whatever the calls before it were.
A call that is in place takes acceptable arguments, and a query whose conditions have finite reals
has statements.

## Main definitions

* `Projection.Valid`: projections that can be selected
* `Query.Step.Acceptable`: the arguments of a call are acceptable for the tables in scope
* `Query.AllAcceptable`: those of all calls are
* `Query.FiniteConditions`: every real in the conditions of a query is finite

## Main results

* `Query.checkProjection_of_valid`, `Query.ensureTerm_of_inScope`: what is acceptable is accepted
* `Query.FiniteConditions.run`: acceptable calls lead to conditions with finite reals
* `Query.exists_selectSql`, `Query.exists_countSql`: queries that have statements
-/

namespace Discography

/-! ### Projections -/

/-- There is no empty object, no object has a key twice, and all columns are in scope. -/
inductive Projection.Valid (scope : List Table) : Projection → Prop
  | column {c : Column} (inScope : c.InScope scope) : Valid scope (.column c)
  | object {fields : List (String × Projection)} (ne_nil : fields ≠ [])
      (nodup : (fields.map Prod.fst).Nodup) (inside : ∀ field ∈ fields, Valid scope field.2) :
      Valid scope (.object fields)

/-- The column by which rows are ordered is in scope, if it is one. -/
def OrderTerm.InScope (scope : List Table) (t : OrderTerm) : Prop :=
  ∀ c, t.key = .column c → c.InScope scope

theorem Table.isSome_column?_iff {t : Table} {name : String} :
    (t.column? name).isSome ↔ ∃ a ∈ t.attributes, a.name = name := by
  simp [Table.column?]

namespace Query

variable {q r : Query}

theorem table?_of_mem (hq : (q.tables.map (·.aliasName)).Nodup) {t : Table} (ht : t ∈ q.tables) :
    q.table? t.aliasName = some t := by
  rw [table?, ← List.head?_filter, filter_aliasName_eq hq ht, List.head?_cons]

theorem ensureInScope_of_inScope (hq : (q.tables.map (·.aliasName)).Nodup) {c : Column}
    (h : c.InScope q.tables) : q.ensureInScope c = .ok () := by
  obtain ⟨t, ht, halias, hattribute⟩ := h
  rw [ensureInScope_eq_ok]
  exact ⟨t, by rw [← halias, table?_of_mem hq ht]; rfl, Table.isSome_column?_iff.mpr hattribute⟩

theorem ensureTerm_of_inScope (hq : (q.tables.map (·.aliasName)).Nodup) {t : OrderTerm}
    (h : t.InScope q.tables) : q.ensureTerm t = .ok () := by
  rw [ensureTerm]
  cases hkey : t.key with
  | column c => exact ensureInScope_of_inScope hq (h c hkey)
  | key name => rfl

mutual

theorem checkProjection_of_valid (hq : (q.tables.map (·.aliasName)).Nodup) :
    ∀ {p : Projection}, p.Valid q.tables → q.checkProjection p = .ok ()
  | .column c, .column h => ensureInScope_of_inScope hq h
  | .object [], .object hne _ _ => absurd rfl hne
  | .object (field :: fields), .object _ hnodup hinside =>
    checkFields_of_valid hq (by simp) hnodup hinside

theorem checkFields_of_valid (hq : (q.tables.map (·.aliasName)).Nodup) :
    ∀ {fields : List (String × Projection)} {seen : List String},
      (∀ field ∈ fields, field.1 ∉ seen) → (fields.map Prod.fst).Nodup →
      (∀ field ∈ fields, field.2.Valid q.tables) → q.checkFields seen fields = .ok ()
  | [], _, _, _, _ => rfl
  | (key, p) :: rest, seen, hseen, hnodup, hvalid => by
    obtain ⟨hkey, hseen⟩ := List.forall_mem_cons.mp hseen
    obtain ⟨hp, hvalid⟩ := List.forall_mem_cons.mp hvalid
    rw [List.map_cons, List.nodup_cons] at hnodup
    rw [checkFields, if_neg hkey, checkProjection_of_valid hq hp]
    refine checkFields_of_valid hq (fun field hfield => ?_) hnodup.2 hvalid
    simp only [List.mem_append, List.mem_singleton, not_or]
    exact ⟨hseen field hfield, fun heq => hnodup.1 (List.mem_map.mpr ⟨field, hfield, heq⟩)⟩

end

/-! ### Calls -/

/-- The arguments of a call are acceptable for the tables in scope. -/
def Step.Acceptable (scope : List Table) : Step → Prop
  | .restrict c | .joinOn c | .and c | .or c => c.Resolves scope ∧ c.IsFinite
  | .join _ t => t.aliasName ∉ scope.map (·.aliasName) ∧ t.attributes ≠ []
  | .select p => p.Valid scope
  | .orderBy t | .thenBy t => t.InScope scope
  | .take _ | .skip _ | .paginate _ => True

/-- The arguments of all calls are acceptable, each for the tables that are in scope by then. -/
def AllAcceptable : List Table → List Step → Prop
  | _, [] => True
  | scope, s :: steps => s.Acceptable scope ∧ AllAcceptable (scope ++ s.table?.toList) steps

/-- Every real in the conditions is finite. -/
structure FiniteConditions (q : Query) : Prop where
  joins : ∀ j ∈ q.joins, ∀ p ∈ j.condition, p.IsFinite
  filter : ∀ p ∈ q.filter, p.IsFinite

theorem finiteConditions_ofTable (d : Dialect) (t : Table) : (ofTable d t).FiniteConditions := by
  constructor <;> simp [ofTable]

/-- Finite conditions stay finite when one is set. -/
theorem forall_mem_setCondition {P : Predicate → Prop} {condition : Option Predicate}
    (hcondition : ∀ p ∈ condition, P p) {joins : List Join}
    (hjoins : ∀ j ∈ joins, ∀ p ∈ j.condition, P p) :
    ∀ j ∈ setCondition condition joins, ∀ p ∈ j.condition, P p := by
  rcases List.eq_nil_or_concat' joins with rfl | ⟨joins, last, rfl⟩
  · exact hjoins
  · rw [setCondition_concat]
    obtain ⟨hearlier, -⟩ := List.forall_mem_append.mp hjoins
    exact List.forall_mem_append.mpr ⟨hearlier, List.forall_mem_singleton.mpr hcondition⟩

theorem forall_mem_combined {P : Predicate → Prop} {combine : Predicate → Predicate → Predicate}
    (hcombine : ∀ p q, P p → P q → P (combine p q)) {present : Option Predicate}
    (hpresent : ∀ p ∈ present, P p) {addition : Predicate} (haddition : P addition) :
    ∀ p ∈ combined combine present addition, P p := by
  rintro _ ⟨⟩
  cases present with
  | none => exact haddition
  | some p => exact hcombine p addition (hpresent p rfl) haddition

theorem FiniteConditions.extendPredicate {op : Operation}
    {combine : Predicate → Predicate → Predicate} {c : Condition} (hq : q.FiniteConditions)
    (hcombine : ∀ p p', p.IsFinite → p'.IsFinite → (combine p p').IsFinite) (hc : c.IsFinite)
    (h : q.extendPredicate op combine c = .ok r) : r.FiniteConditions := by
  obtain ⟨-, p, hp, ⟨-, rfl⟩ | ⟨a, rfl, ⟨-, rfl⟩ | ⟨-, j, hj, rfl⟩⟩⟩ := extendPredicate_eq_ok.mp h
  · exact hq
  · exact ⟨hq.joins, forall_mem_combined hcombine hq.filter (hc.of_resolve hp)⟩
  · have hlast := hq.joins j (List.mem_of_getLast? hj)
    exact ⟨forall_mem_setCondition (forall_mem_combined hcombine hlast (hc.of_resolve hp)) hq.joins,
      hq.filter⟩

/-- One call preserves that conditions have finite reals. -/
theorem FiniteConditions.apply {s : Step} (hq : q.FiniteConditions) (hinvariant : q.Invariant)
    (hs : s.Acceptable q.tables) (h : q.apply s = .ok r) : r.FiniteConditions := by
  cases s with
  | restrict c =>
    obtain ⟨-, p, hp, rfl⟩ := restrict_eq_ok.mp h
    exact ⟨hq.joins, fun p' hp' => hs.2.of_resolve (hp.trans (congrArg _ hp'))⟩
  | joinOn c =>
    obtain ⟨-, p, hp, rfl⟩ := joinOn_eq_ok.mp h
    refine ⟨forall_mem_setCondition ?_ hq.joins, hq.filter⟩
    rintro _ ⟨⟩
    cases p with
    | none => trivial
    | some p => exact hs.2.of_resolve hp
  | and c => exact hq.extendPredicate (fun _ _ hp hp' => hp.extend hp' .and) hs.2 h
  | or c => exact hq.extendPredicate (fun _ _ hp hp' => hp.extend hp' .or) hs.2 h
  | join kind t =>
    obtain ⟨-, -, -, rfl⟩ := join_eq_ok.mp h
    exact ⟨List.forall_mem_append.mpr ⟨hq.joins, by simp⟩, hq.filter⟩
  | select p | orderBy t | thenBy t | take n | skip n | paginate page =>
    obtain ⟨-, _, _, _, _, rfl⟩ := shape_of_apply hinvariant rfl h
    exact ⟨hq.joins, hq.filter⟩

theorem FiniteConditions.run {steps : List Step} (hq : q.FiniteConditions)
    (hinvariant : q.Invariant) (hsteps : AllAcceptable q.tables steps) (h : q.run steps = .ok r) :
    r.FiniteConditions := by
  induction steps generalizing q with
  | nil =>
    obtain rfl := Except.ok.inj h
    exact hq
  | cons s steps ih =>
    obtain ⟨q', hs, hrest⟩ := run_cons.mp h
    obtain ⟨-, htables⟩ := apply_frame hs
    refine ih (hq.apply hinvariant hsteps.1 hs) (hinvariant.apply hs) ?_ hrest
    rw [htables]
    exact hsteps.2

/-! ### Statements -/

theorem FiniteConditions.isFinite_of_mem_reals (hq : q.FiniteConditions) :
    ∀ x ∈ q.conditionReals, x.isFinite := by
  refine List.forall_mem_append.mpr ⟨fun x hx => ?_, ?_⟩
  · obtain ⟨j, hj, hmem⟩ := List.mem_flatMap.mp hx
    exact Predicate.isFinite_of_mem_optionalReals (hq.joins j hj) x hmem
  · exact Predicate.isFinite_of_mem_optionalReals hq.filter

theorem exists_selectSql (hq : q.FiniteConditions) : ∃ sql, q.selectSql = .ok sql :=
  q.decidedBy_selectSql.exists_ok_iff.mpr hq.isFinite_of_mem_reals

theorem exists_countSql (hq : q.FiniteConditions) : ∃ sql, q.countSql = .ok sql :=
  q.decidedBy_countSql.exists_ok_iff.mpr hq.isFinite_of_mem_reals

end Query

end Discography
