import Discography.Filter.Condition
import Discography.Proofs.Filter.Evaluation
import Discography.Proofs.Query.Invariant
import Mathlib.Data.List.Nodup

/-!
# What patterns expand to

A pattern stands for one equality for each of its fields, in the order in which they are written,
however deep entries for tables are nested. A field is looked up in the table of the innermost entry
around it, and elsewhere in all tables in scope; exactly one of these tables has to have a column of
its name. Inside an entry for a table no other table is in scope.

## Main definitions

* `Pattern.fields`, `Pattern.nestings`: the fields of a pattern, and its entries for tables
* `Pattern.tablesWithin`: the tables that are in scope at an entry
* `Pattern.Names`: the column that a name stands for
* `Predicate.conjunction`: predicates joined by `AND`

## Main results

* `Pattern.resolveColumn_eq_ok_iff`: names that stand for a column
* `Pattern.comparisons_eq_ok_iff`: patterns that are accepted, with their comparisons
* `Pattern.resolves_to_fields`: the condition of a pattern
-/

namespace Discography

/-! ### Conjunctions -/

namespace Predicate

variable {v : Expression → Operator → Expression → Truth} {ps : List Predicate}

/-- The chain of predicates joined by `AND`. A single predicate stands for itself, and without any
there is none. -/
def conjunction : List Predicate → Option Predicate
  | [] => none
  | [p] => some p
  | p :: rest => some (chain p (rest.map fun q => (.and, q)))

theorem foldl_and_chain (first : Predicate) (rest ps : List Predicate) :
    ps.foldl and (chain first (rest.map fun q => (.and, q))) =
      chain first ((rest ++ ps).map fun q => (.and, q)) := by
  induction ps generalizing rest with
  | nil => simp
  | cons p ps ih =>
    have hextend : and (chain first (rest.map fun q => (.and, q))) p =
        chain first ((rest ++ [p]).map fun q => (.and, q)) := by
      rw [and, extend, if_pos (by simp)]
      simp
    rw [List.foldl_cons, hextend, ih, List.append_assoc, List.singleton_append]

/-- Predicates that are no chains are joined to a flat chain. -/
theorem all_eq_conjunction (h : ∀ p ∈ ps.head?, p.isChain = false) :
    all ps = conjunction ps := by
  cases ps with
  | nil => rfl
  | cons first rest =>
    cases rest with
    | nil => rfl
    | cons second rest =>
      have hfirst : and first second = chain first ([second].map fun q => (.and, q)) := by
        cases first with
        | chain _ _ => cases h _ rfl
        | _ => rfl
      rw [all, List.foldl_cons, hfirst, foldl_and_chain]
      rfl

theorem conjunction_eq_none_iff : conjunction ps = none ↔ ps = [] := by
  rcases ps with _ | ⟨p, _ | ⟨q, ps⟩⟩ <;> simp [conjunction]

theorem foldl_and_eq_holds (x : Truth) (qs : List Predicate) :
    (qs.map fun q => (Connective.and, q)).foldl (fun x a => a.1.apply x (a.2.truth v)) x = .holds ↔
      x = .holds ∧ ∀ q ∈ qs, q.truth v = .holds := by
  induction qs generalizing x with
  | nil => simp
  | cons q qs ih =>
    have hand : Connective.and.apply x (q.truth v) = .holds ↔ x = .holds ∧ q.truth v = .holds := by
      cases x <;> cases q.truth v <;> decide
    rw [List.map_cons, List.foldl_cons, ih, hand, List.forall_mem_cons, and_assoc]

/-- Predicates joined by `AND` hold if each of them does. -/
theorem truth?_all_eq_holds : truth? v (all ps) = .holds ↔ ∀ p ∈ ps, p.truth v = .holds := by
  cases ps with
  | nil => simp [all, truth?]
  | cons first rest =>
    have hfold : rest.foldl and first =
        (rest.map fun q => (Connective.and, q)).foldl (fun p a => extend a.1 p a.2) first := by
      rw [List.foldl_map]
      rfl
    rw [all, truth?, Option.elim_some, hfold, truth_foldl, foldl_and_eq_holds,
      List.forall_mem_cons]

end Predicate

namespace Pattern

/-! ### Fields and entries for tables -/

/-- A field, with the alias of the innermost entry for a table around it. -/
structure Field where
  around : Option String
  name : String
  value : Expression

/-- An entry for a table, with the alias of the innermost one around it. -/
structure Nesting where
  around : Option String
  aliasName : String

mutual

/-- The fields of an entry, from left to right. -/
def entryFields (around : Option String) : Entry → List Field
  | .field name value => [⟨around, name, value⟩]
  | .table aliasName entries => fields (some aliasName) entries

/-- The fields of entries, from left to right. -/
def fields (around : Option String) : List Entry → List Field
  | [] => []
  | entry :: rest => entryFields around entry ++ fields around rest

end

mutual

/-- The entries for tables in an entry, itself included. -/
def entryNestings (around : Option String) : Entry → List Nesting
  | .field _ _ => []
  | .table aliasName entries => ⟨around, aliasName⟩ :: nestings (some aliasName) entries

/-- The entries for tables in entries. -/
def nestings (around : Option String) : List Entry → List Nesting
  | [] => []
  | entry :: rest => entryNestings around entry ++ nestings around rest

end

/-- The tables in scope inside the entry for a table, or outside of all of them. -/
def tablesWithin (scope : List Table) (around : Option String) : List Table :=
  scope.filter fun t => around.all (t.aliasName = ·)

/-- The name stands for the column: one of the tables has it, and no other has one of that name. -/
def Names (tables : List Table) (name : String) (c : Column) : Prop :=
  ∃ t ∈ tables, t.column? name = some c ∧ ∀ u ∈ tables, (u.column? name).isSome → u = t

/-- The entry is for a table in scope. -/
def Nesting.InScope (scope : List Table) (n : Nesting) : Prop :=
  ∃ t ∈ tablesWithin scope n.around, t.aliasName = n.aliasName

/-- The field stands for the equality of a column with an expression. -/
def Field.Equates (scope : List Table) (f : Field) (e : Column × Expression) : Prop :=
  Names (tablesWithin scope f.around) f.name e.1 ∧ e.2 = f.value

/-- The equality of a column with an expression. -/
def equality (e : Column × Expression) : Predicate := .compare (.column e.1) .eq e.2

variable {scope : List Table} {name : String} {c : Column}

/-! ### Names -/

/-- One item of a list has a value if the values of all items are this one only. -/
private theorem filterMap_eq_singleton_iff {α β : Type} {f : α → Option β} {xs : List α} {b : β}
    (h : xs.Nodup) :
    xs.filterMap f = [b] ↔ ∃ a ∈ xs, f a = some b ∧ ∀ a' ∈ xs, (f a').isSome → a' = a := by
  induction xs with
  | nil => simp
  | cons a xs ih =>
    obtain ⟨hnot, hnodup⟩ := List.nodup_cons.mp h
    cases ha : f a with
    | none =>
      rw [List.filterMap_cons_none ha, ih hnodup]
      simp [ha]
    | some b' =>
      rw [List.filterMap_cons_some ha, List.cons_eq_cons, List.filterMap_eq_nil_iff]
      constructor
      · rintro ⟨rfl, hrest⟩
        refine ⟨a, List.mem_cons_self, ha, List.forall_mem_cons.mpr ⟨fun _ => rfl, ?_⟩⟩
        intro a' ha' hsome
        rw [hrest a' ha'] at hsome
        cases hsome
      · rintro ⟨a₀, -, hb, hunique⟩
        obtain ⟨hfirst, hrest⟩ := List.forall_mem_cons.mp hunique
        -- the first item has a value, so it is the one that has `b`
        obtain rfl := hfirst (by rw [ha]; rfl)
        refine ⟨Option.some.inj (ha.symm.trans hb), fun a' ha' => ?_⟩
        by_contra hsome
        obtain rfl := hrest a' ha' (Option.isSome_iff_ne_none.mpr hsome)
        exact hnot ha'

/-- A name resolves to the column that it stands for. -/
theorem resolveColumn_eq_ok_iff (h : scope.Nodup) :
    resolveColumn scope name = .ok c ↔ Names scope name c := by
  by_cases hone : ∃ t, scope = [t]
  · -- a single table looks the name up itself, with another refusal
    obtain ⟨t, rfl⟩ := hone
    rw [resolveColumn, Table.column]
    cases hc : t.column? name <;> simp [Names, hc]
  · rw [Names, ← filterMap_eq_singleton_iff h, resolveColumn]
    · split <;> simp_all
    · exact fun t ht => hone ⟨t, ht⟩

/-! ### Comparisons -/

theorem nodup_tablesWithin (h : (scope.map (·.aliasName)).Nodup) (around : Option String) :
    (tablesWithin scope around).Nodup :=
  (List.Nodup.of_map _ h).filter _

theorem tablesWithin_none (scope : List Table) : tablesWithin scope none = scope := by
  simp [tablesWithin]

/-- Inside the entry for a table, this table alone is in scope. -/
theorem tablesWithin_some (h : (scope.map (·.aliasName)).Nodup) {around : Option String} {t : Table}
    (ht : t ∈ tablesWithin scope around) : tablesWithin scope (some t.aliasName) = [t] := by
  rw [← filter_aliasName_eq h (List.mem_filter.mp ht).1]
  simp [tablesWithin]

theorem inScope_iff_find? {around : Option String} {aliasName : String} :
    (⟨around, aliasName⟩ : Nesting).InScope scope ↔
      ∃ t, (tablesWithin scope around).find? (·.aliasName = aliasName) = some t := by
  rw [← Option.isSome_iff_exists, List.find?_isSome]
  simp [Nesting.InScope]

mutual

/-- An entry is accepted if its names and aliases are, and stands for its fields. -/
theorem entryComparisons_eq_ok_iff (hscope : (scope.map (·.aliasName)).Nodup) :
    ∀ (entry : Entry) (around : Option String) (ps : List Predicate),
      entryComparisons (tablesWithin scope around) entry = .ok ps ↔
        (∀ n ∈ entryNestings around entry, n.InScope scope) ∧
        ∃ es, List.Forall₂ (Field.Equates scope) (entryFields around entry) es ∧
          es.map equality = ps
  | .field name value, around, ps => by
    rw [entryComparisons, entryNestings, entryFields]
    simp only [Outcome.bind_eq_ok, Outcome.pure_eq_ok,
      resolveColumn_eq_ok_iff (nodup_tablesWithin hscope around)]
    constructor
    · rintro ⟨c, hc, rfl⟩
      exact ⟨nofun, [(c, value)], .cons ⟨hc, rfl⟩ .nil, rfl⟩
    · rintro ⟨-, es, hes, rfl⟩
      obtain ⟨⟨c, e⟩, rest, ⟨hc, rfl⟩, hrest, rfl⟩ := List.forall₂_cons_left_iff.mp hes
      cases hrest
      exact ⟨c, hc, rfl⟩
  | .table aliasName entries, around, ps => by
    rw [entryComparisons, entryNestings, entryFields, List.forall_mem_cons, inScope_iff_find?]
    cases hfind : (tablesWithin scope around).find? (·.aliasName = aliasName) with
    | none => simp
    | some t =>
      have ht : t ∈ tablesWithin scope around := List.mem_of_find?_eq_some hfind
      obtain rfl : t.aliasName = aliasName := by simpa using List.find?_some hfind
      have hinside := comparisons_eq_ok_iff hscope entries (some t.aliasName) ps
      rw [tablesWithin_some hscope ht] at hinside
      simpa using hinside

/-- Entries are accepted if their names and aliases are, and stand for their fields in order. -/
theorem comparisons_eq_ok_iff (hscope : (scope.map (·.aliasName)).Nodup) :
    ∀ (entries : List Entry) (around : Option String) (ps : List Predicate),
      comparisons (tablesWithin scope around) entries = .ok ps ↔
        (∀ n ∈ nestings around entries, n.InScope scope) ∧
        ∃ es, List.Forall₂ (Field.Equates scope) (fields around entries) es ∧
          es.map equality = ps
  | [], around, ps => by
    simp [comparisons, nestings, fields]
  | entry :: rest, around, ps => by
    rw [comparisons, nestings, fields]
    simp only [Outcome.bind_eq_ok, Outcome.pure_eq_ok, List.forall_mem_append,
      entryComparisons_eq_ok_iff hscope entry around, comparisons_eq_ok_iff hscope rest around]
    constructor
    · rintro ⟨_, ⟨hfirst, es, hes, rfl⟩, _, ⟨hrest, es', hes', rfl⟩, rfl⟩
      exact ⟨⟨hfirst, hrest⟩, es ++ es', List.rel_append hes hes', List.map_append⟩
    · rintro ⟨⟨hfirst, hrest⟩, es, hes, rfl⟩
      obtain ⟨es₁, es₂, hes₁, hes₂, rfl⟩ := Outcome.exists_of_forall₂_append hes
      exact ⟨_, ⟨hfirst, es₁, hes₁, rfl⟩, _, ⟨hrest, es₂, hes₂, rfl⟩, List.map_append.symm⟩

end

/-! ### Conditions -/

/-- **Patterns expand to their fields.** A pattern is accepted if every entry for a table is for one
in scope and every field has the name of a column of exactly one table in scope, where inside the
entry for a table this table alone is in scope. It has no predicate if it has no field at any depth.
Otherwise its predicate is the flat chain by `AND` of an equality for each field, in order, between
the column and the expression of the field; it holds for a row if all of these equalities do. -/
theorem resolves_to_fields (hscope : (scope.map (·.aliasName)).Nodup) (entries : Pattern) :
    ((∃ result, (Condition.pattern entries).resolve scope = .ok result) ↔
      (∀ n ∈ nestings none entries, n.InScope scope) ∧
      ∀ f ∈ fields none entries, ∃ c, Names (tablesWithin scope f.around) f.name c) ∧
    ∀ result, (Condition.pattern entries).resolve scope = .ok result →
      (result = none ↔ fields none entries = []) ∧
      ∃ es, List.Forall₂ (Field.Equates scope) (fields none entries) es ∧
        result = Predicate.conjunction (es.map equality) ∧
        ∀ v, Predicate.truth? v result = .holds ↔
          ∀ e ∈ es, v (.column e.1) .eq e.2 = .holds := by
  have hcomparisons := comparisons_eq_ok_iff hscope entries none
  rw [tablesWithin_none] at hcomparisons
  simp only [Condition.resolve, Outcome.map_eq_ok, hcomparisons]
  refine ⟨⟨?_, ?_⟩, ?_⟩
  · rintro ⟨_, _, ⟨hnestings, es, hes, -⟩, -⟩
    refine ⟨hnestings, fun f hf => ?_⟩
    obtain ⟨e, -, hnames, -⟩ := Outcome.exists_mem_of_forall₂ hes hf
    exact ⟨e.1, hnames⟩
  · rintro ⟨hnestings, hfields⟩
    have hequates : ∀ f ∈ fields none entries, ∃ e, f.Equates scope e := fun f hf => by
      obtain ⟨c, hc⟩ := hfields f hf
      exact ⟨(c, f.value), hc, rfl⟩
    obtain ⟨es, hes⟩ := Outcome.exists_forall₂ hequates
    exact ⟨_, _, ⟨hnestings, es, hes, rfl⟩, rfl⟩
  · rintro _ ⟨_, ⟨-, es, hes, rfl⟩, rfl⟩
    have hconjunction : Predicate.all (es.map equality) =
        Predicate.conjunction (es.map equality) := by
      refine Predicate.all_eq_conjunction fun p hp => ?_
      obtain ⟨e, -, rfl⟩ := List.mem_map.mp (List.mem_of_mem_head? hp)
      rfl
    refine ⟨?_, es, hes, hconjunction, fun v => ?_⟩
    · rw [hconjunction, Predicate.conjunction_eq_none_iff, List.map_eq_nil_iff,
        ← List.length_eq_zero_iff, ← hes.length_eq, List.length_eq_zero_iff]
    · rw [Predicate.truth?_all_eq_holds, List.forall_mem_map]
      rfl

/-- Two tables with a column of the same name, which the entry for one of them tells apart. The
pattern holds for a row if its three equalities do. -/
theorem resolves_to_fields_nested :
    let foo : Table :=
      ⟨"foo", .path ["foo"], [{ name := "a", type := .string }, { name := "b", type := .number }]⟩
    let bar : Table :=
      ⟨"bar", .path ["bar"], [{ name := "b", type := .number }, { name := "c", type := .string }]⟩
    let fooA : Column := foo.columnOf { name := "a", type := .string }
    let barB : Column := bar.columnOf { name := "b", type := .number }
    let barC : Column := bar.columnOf { name := "c", type := .string }
    let null : Expression := .literal .null
    let entries : Pattern :=
      [.field "a" (.column barC), .table "bar" [.table "bar" [], .field "b" null], .field "c" null]
    ([foo, bar].map (·.aliasName)).Nodup ∧
      ∃ p, (Condition.pattern entries).resolve [foo, bar] = .ok (some p) ∧
        ∀ v, p.truth v = .holds ↔ v (.column fooA) .eq (.column barC) = .holds ∧
          v (.column barB) .eq null = .holds ∧ v (.column barC) .eq null = .holds := by
  intro foo bar fooA barB barC null entries
  have hscope : ([foo, bar].map (·.aliasName)).Nodup := by decide
  let p : Predicate := .chain (equality (fooA, .column barC))
    [(.and, equality (barB, null)), (.and, equality (barC, null))]
  have hp : (Condition.pattern entries).resolve [foo, bar] = .ok (some p) := rfl
  obtain ⟨-, es, hes, hconjunction, htruth⟩ := (resolves_to_fields hscope entries).2 _ hp
  refine ⟨hscope, p, hp, fun v => (htruth v).trans ?_⟩
  -- three fields have three equalities, and the predicate shows which ones
  obtain ⟨⟨c₁, e₁⟩, ⟨c₂, e₂⟩, ⟨c₃, e₃⟩, rfl⟩ := List.length_eq_three.mp hes.length_eq.symm
  have hequalities := Option.some.inj hconjunction
  simp only [p, equality, List.map_cons, List.map_nil, Predicate.chain.injEq,
    Predicate.compare.injEq, Expression.column.injEq, List.cons.injEq, Prod.mk.injEq, true_and,
    and_true] at hequalities
  obtain ⟨⟨rfl, rfl⟩, ⟨rfl, rfl⟩, rfl, rfl⟩ := hequalities
  simp

end Pattern

end Discography
