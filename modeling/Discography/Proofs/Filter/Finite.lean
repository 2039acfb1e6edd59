import Discography.Filter.Condition
import Discography.Proofs.Filter.Reals
import Discography.Proofs.Sql.Literals

/-!
# Conditions with finite reals

Only a real without a finite value has no literal, so a condition whose reals are all finite has a
text in every dialect.

## Main definitions

* `Expression.IsFinite`, `Predicate.IsFinite`, `Condition.IsFinite`: every real is finite, at any
  depth

## Main results

* `Predicate.isFinite_iff_reals`: the reals that have to be finite
* `Condition.IsFinite.of_resolve`: the predicate of a condition with finite reals has finite reals
-/

namespace Discography

/-! ### Expressions -/

namespace Expression

mutual

/-- Every real in the expression is finite, at any depth. -/
def IsFinite : Expression → Prop
  | literal v => v.IsFinite
  | column _ => True
  | tuple items => ItemsFinite items

/-- Every real in the expressions of a list is finite. -/
def ItemsFinite : List Expression → Prop
  | [] => True
  | e :: rest => e.IsFinite ∧ ItemsFinite rest

end

mutual

theorem isFinite_iff_reals : ∀ e : Expression, e.IsFinite ↔ ∀ x ∈ e.reals, x.isFinite
  | literal v => v.isFinite_iff_reals
  | column _ => by simp [IsFinite, reals]
  | tuple items => itemsFinite_iff_reals items

theorem itemsFinite_iff_reals : ∀ items : List Expression,
    ItemsFinite items ↔ ∀ x ∈ itemsReals items, x.isFinite
  | [] => by simp [ItemsFinite, itemsReals]
  | e :: rest => by
    rw [ItemsFinite, itemsReals, isFinite_iff_reals e, itemsFinite_iff_reals rest,
      List.forall_mem_append]

end

end Expression

/-! ### Predicates -/

namespace Predicate

mutual

/-- Every real in the predicate is finite. -/
def IsFinite : Predicate → Prop
  | literal _ => True
  | compare left _ right => left.IsFinite ∧ right.IsFinite
  | chain first rest => first.IsFinite ∧ RestFinite rest

/-- Every real in the later components of a chain is finite. -/
def RestFinite : List (Connective × Predicate) → Prop
  | [] => True
  | (_, p) :: rest => p.IsFinite ∧ RestFinite rest

end

theorem restFinite_append {rest more : List (Connective × Predicate)} :
    RestFinite (rest ++ more) ↔ RestFinite rest ∧ RestFinite more := by
  induction rest with
  | nil => simp [RestFinite]
  | cons component rest ih => simp [RestFinite, ih, and_assoc]

mutual

theorem isFinite_iff_reals : ∀ p : Predicate, p.IsFinite ↔ ∀ x ∈ p.reals, x.isFinite
  | literal _ => by simp [IsFinite, reals]
  | compare left _ right => by
    rw [IsFinite, reals, left.isFinite_iff_reals, right.isFinite_iff_reals, List.forall_mem_append]
  | chain first rest => by
    rw [IsFinite, reals, isFinite_iff_reals first, restFinite_iff_reals rest,
      List.forall_mem_append]

theorem restFinite_iff_reals : ∀ rest : List (Connective × Predicate),
    RestFinite rest ↔ ∀ x ∈ restReals rest, x.isFinite
  | [] => by simp [RestFinite, restReals]
  | (_, p) :: rest => by
    rw [RestFinite, restReals, isFinite_iff_reals p, restFinite_iff_reals rest,
      List.forall_mem_append]

end

theorem isFinite_of_mem_optionalReals {p : Option Predicate} (h : ∀ q ∈ p, q.IsFinite) :
    ∀ x ∈ optionalReals p, x.isFinite := by
  cases p with
  | none => nofun
  | some q => exact q.isFinite_iff_reals.mp (h q rfl)

theorem IsFinite.extend {p q : Predicate} (hp : p.IsFinite) (hq : q.IsFinite) (c : Connective) :
    (Predicate.extend c p q).IsFinite := by
  have hlast : RestFinite [(c, q)] := ⟨hq, trivial⟩
  cases p with
  | literal b => exact ⟨hp, hlast⟩
  | compare left op right => exact ⟨hp, hlast⟩
  | chain first rest =>
    rw [Predicate.extend]
    split
    · exact ⟨hp.1, restFinite_append.mpr ⟨hp.2, hlast⟩⟩
    · exact ⟨hp, hlast⟩

theorem isFinite_of_all {ps : List Predicate} (hps : ∀ p ∈ ps, p.IsFinite) {p : Predicate}
    (h : all ps = some p) : p.IsFinite := by
  cases ps with
  | nil => cases h
  | cons first rest =>
    obtain ⟨hfirst, hrest⟩ := List.forall_mem_cons.mp hps
    obtain rfl := Option.some.inj h
    clear h hps
    induction rest generalizing first with
    | nil => exact hfirst
    | cons q rest ih =>
      obtain ⟨hq, hrest⟩ := List.forall_mem_cons.mp hrest
      exact ih (first.and q) (hfirst.extend hq .and) hrest

end Predicate

/-! ### Conditions -/

mutual

/-- Every real in the entry is finite. -/
def Entry.IsFinite : Entry → Prop
  | .field _ value => value.IsFinite
  | .table _ entries => Entry.EntriesFinite entries

/-- Every real in the entries of a pattern is finite. -/
def Entry.EntriesFinite : List Entry → Prop
  | [] => True
  | entry :: rest => Entry.IsFinite entry ∧ Entry.EntriesFinite rest

end

/-- Every real in the condition is finite. -/
def Condition.IsFinite : Condition → Prop
  | pattern entries => Entry.EntriesFinite entries
  | comparison left _ right => left.IsFinite ∧ right.IsFinite
  | predicate p => p.IsFinite

mutual

theorem Pattern.isFinite_of_entryComparisons : ∀ {entry : Entry} {scope : List Table}
    {ps : List Predicate}, entry.IsFinite → entryComparisons scope entry = .ok ps →
      ∀ p ∈ ps, p.IsFinite
  | .field name value, scope, ps, hfinite, h => by
    rw [entryComparisons] at h
    obtain ⟨c, -, hps⟩ := Outcome.bind_eq_ok.mp h
    obtain rfl := Outcome.pure_eq_ok.mp hps
    exact List.forall_mem_singleton.mpr ⟨trivial, hfinite⟩
  | .table aliasName entries, scope, ps, hfinite, h => by
    rw [entryComparisons] at h
    split at h
    · exact isFinite_of_comparisons hfinite h
    · cases h

theorem Pattern.isFinite_of_comparisons : ∀ {entries : List Entry} {scope : List Table}
    {ps : List Predicate}, Entry.EntriesFinite entries → comparisons scope entries = .ok ps →
      ∀ p ∈ ps, p.IsFinite
  | [], scope, ps, _, h => by
    obtain rfl := Except.ok.inj h
    simp
  | entry :: rest, scope, ps, hfinite, h => by
    rw [comparisons] at h
    obtain ⟨first, hfirst, hmore⟩ := Outcome.bind_eq_ok.mp h
    obtain ⟨more, hrest, hps⟩ := Outcome.bind_eq_ok.mp hmore
    obtain rfl := Outcome.pure_eq_ok.mp hps
    exact List.forall_mem_append.mpr
      ⟨isFinite_of_entryComparisons hfinite.1 hfirst, isFinite_of_comparisons hfinite.2 hrest⟩

end

/-- The predicate of a condition with finite reals has finite reals. -/
theorem Condition.IsFinite.of_resolve {scope : List Table} {c : Condition} (hc : c.IsFinite)
    {p : Predicate} (h : c.resolve scope = .ok (some p)) : p.IsFinite := by
  cases c with
  | pattern entries =>
    obtain ⟨ps, hps, hp⟩ := Outcome.map_eq_ok.mp h
    exact Predicate.isFinite_of_all (Pattern.isFinite_of_comparisons hc hps) hp
  | comparison left op right =>
    obtain ⟨p', hp', hp⟩ := Outcome.map_eq_ok.mp h
    obtain ⟨op', -, rfl⟩ := Outcome.map_eq_ok.mp hp'
    obtain rfl := Option.some.inj hp
    exact hc
  | predicate p' =>
    obtain rfl := Option.some.inj (Except.ok.inj h)
    exact hc

end Discography
