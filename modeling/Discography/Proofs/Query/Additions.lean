import Discography.Proofs.Filter.Evaluation
import Discography.Proofs.Query.CallLog

/-!
# Additions to the condition of a join and to the filter

`and` and `or` add conditions to that of the last join or to the filter, whichever was set last. An
empty pattern is `TRUE` as the condition of a join, and as a filter it is no condition at all, which
is always true as well. The two differ in what an addition makes of them: `TRUE` is kept, while the
first predicate that is added takes the place of an absent filter. Added by `and` it means the same
in both places. Added by `or` it does not, since the filter is forgotten.

## Main definitions

* `Condition.Resolves`: conditions that are accepted
* `Query.Step.adding`: the calls that add conditions
* `Query.added`: the predicates that calls add
* `Query.ForgetsTruth`: an addition that takes the place of an absent filter by `or`

## Main results

* `Query.run_adding_of_whereFiltered`, `Query.run_adding_of_joinFiltered`: what the calls leave
* `Query.truth_joinOn_restrict`: the truth values of what they leave
-/

namespace Discography

open Query

/-- The condition is accepted for the tables. -/
def Condition.Resolves (scope : List Table) (c : Condition) : Prop :=
  ∃ p, c.resolve scope = .ok p

theorem Condition.Resolves.predicate? {scope : List Table} {c : Condition} (h : c.Resolves scope) :
    c.resolve scope = .ok (Step.predicate? scope c) := by
  obtain ⟨p, hp⟩ := h
  rw [predicate?_of_resolve hp, hp]

namespace Query

variable {q : Query} {calls : List (Connective × Condition)}

/-- The call that adds a condition by a connective. -/
def Step.adding : Connective × Condition → Step
  | (.and, c) => .and c
  | (.or, c) => .or c

theorem addTo_adding (scope : List Table) (call : Connective × Condition)
    (present : Option Predicate) :
    (Step.adding call).addTo scope present =
      (Step.predicate? scope call.2).elim present
        (combined (Predicate.extend call.1) present) := by
  obtain ⟨c, condition⟩ := call
  cases c <;> rfl

/-- A call adds to the filter if this was set last. -/
theorem apply_adding_of_whereFiltered (hstage : q.stage = .whereFiltered)
    {call : Connective × Condition} (hcall : call.2.Resolves q.tables) :
    q.apply (Step.adding call) =
      .ok { q with filter := (Step.adding call).addTo q.tables q.filter } := by
  obtain ⟨c, condition⟩ := call
  have hresolve := hcall.predicate?
  have hextend (op : Operation) : q.extendPredicate op (Predicate.extend c) condition =
      .ok { q with filter := (Step.adding (c, condition)).addTo q.tables q.filter } := by
    rw [extendPredicate_eq_ok]
    refine ⟨.inl hstage, _, hresolve, ?_⟩
    rw [addTo_adding]
    cases Step.predicate? q.tables condition with
    | none => exact .inl ⟨rfl, rfl⟩
    | some a => exact .inr ⟨a, rfl, .inl ⟨hstage, rfl⟩⟩
  cases c <;> exact hextend _

/-- A call adds to the condition of the last join if this was set last. -/
theorem apply_adding_of_joinFiltered (hstage : q.stage = .joinFiltered) {joins : List Join}
    {j : Join} (hjoins : q.joins = joins ++ [j]) {call : Connective × Condition}
    (hcall : call.2.Resolves q.tables) :
    q.apply (Step.adding call) =
      .ok { q with joins := joins ++
        [{ j with condition := (Step.adding call).addTo q.tables j.condition }] } := by
  obtain ⟨c, condition⟩ := call
  have hresolve := hcall.predicate?
  have hextend (op : Operation) : q.extendPredicate op (Predicate.extend c) condition =
      .ok { q with joins := joins ++
        [{ j with condition := (Step.adding (c, condition)).addTo q.tables j.condition }] } := by
    rw [extendPredicate_eq_ok]
    refine ⟨.inr hstage, _, hresolve, ?_⟩
    rw [addTo_adding]
    cases Step.predicate? q.tables condition with
    | none => exact .inl ⟨rfl, by simp [← hjoins]⟩
    | some a =>
      exact .inr ⟨a, rfl, .inr ⟨hstage, j, by simp [hjoins], by simp [hjoins, setCondition_concat]⟩⟩
  cases c <;> exact hextend _

/-- What calls leave of the filter. -/
theorem run_adding_of_whereFiltered (hstage : q.stage = .whereFiltered)
    (hcalls : ∀ call ∈ calls, call.2.Resolves q.tables) :
    q.run (calls.map Step.adding) =
      .ok { q with filter := (calls.map Step.adding).foldl (Step.addTo q.tables) q.filter } := by
  induction calls generalizing q with
  | nil => rfl
  | cons call calls ih =>
    obtain ⟨hcall, hcalls⟩ := List.forall_mem_cons.mp hcalls
    rw [List.map_cons, run_cons]
    exact ⟨_, apply_adding_of_whereFiltered hstage hcall, ih hstage hcalls⟩

/-- What calls leave of the condition of the last join. -/
theorem run_adding_of_joinFiltered (hstage : q.stage = .joinFiltered) {joins : List Join}
    {j : Join} (hjoins : q.joins = joins ++ [j])
    (hcalls : ∀ call ∈ calls, call.2.Resolves q.tables) :
    q.run (calls.map Step.adding) =
      .ok { q with joins := joins ++
        [{ j with
          condition := (calls.map Step.adding).foldl (Step.addTo q.tables) j.condition }] } := by
  induction calls generalizing q j with
  | nil => simp [← hjoins]
  | cons call calls ih =>
    obtain ⟨hcall, hcalls⟩ := List.forall_mem_cons.mp hcalls
    have hadded := apply_adding_of_joinFiltered hstage hjoins hcall
    -- additions bring no table, so the others are still about the same ones
    have htables := (apply_frame hadded).2
    have hscope : (Step.adding call).table? = none := by
      obtain ⟨c, condition⟩ := call
      cases c <;> rfl
    rw [hscope, Option.toList_none, List.append_nil] at htables
    have hrest := ih (q := { q with joins := joins ++
      [{ j with condition := (Step.adding call).addTo q.tables j.condition }] })
      hstage rfl (by rwa [htables])
    rw [htables] at hrest
    rw [List.map_cons, run_cons]
    exact ⟨_, hadded, hrest⟩

/-! ### Truth values -/

/-- The predicates that calls add, each with its connective. -/
def added (scope : List Table) (calls : List (Connective × Condition)) :
    List (Connective × Predicate) :=
  calls.filterMap fun call => (Step.predicate? scope call.2).map fun p => (call.1, p)

/-- Nothing restricts the rows so far, and a predicate is added by `or`. -/
def ForgetsTruth (scope : List Table) (m : Condition) (calls : List (Connective × Condition)) :
    Prop :=
  Step.predicate? scope m = none ∧ ∃ p rest, added scope calls = (.or, p) :: rest

/-- Calls that add nothing can be left out. -/
theorem foldl_addTo_adding (scope : List Table) (calls : List (Connective × Condition))
    (present : Option Predicate) :
    (calls.map Step.adding).foldl (Step.addTo scope) present =
      (added scope calls).foldl (fun present a => combined (Predicate.extend a.1) present a.2)
        present := by
  induction calls generalizing present with
  | nil => rfl
  | cons call calls ih =>
    rw [List.map_cons, List.foldl_cons, ih, addTo_adding, added, added, List.filterMap_cons]
    cases Step.predicate? scope call.2 <;> rfl

theorem foldl_combined_some (additions : List (Connective × Predicate)) (p : Predicate) :
    additions.foldl (fun present a => combined (Predicate.extend a.1) present a.2) (some p) =
      some (additions.foldl (fun p a => Predicate.extend a.1 p a.2) p) := by
  induction additions generalizing p with
  | nil => rfl
  | cons a additions ih => exact ih _

/-- The truth value of what calls leave of a condition. -/
theorem truth_foldl_combined (v : Expression → Operator → Expression → Truth)
    (additions : List (Connective × Predicate)) (p : Predicate) :
    Predicate.truth? v
        (additions.foldl (fun present a => combined (Predicate.extend a.1) present a.2) (some p)) =
      additions.foldl (fun x a => a.1.apply x (a.2.truth v)) (p.truth v) := by
  rw [foldl_combined_some]
  exact Predicate.truth_foldl additions p

/-- Unless the filter is forgotten, an absent condition and `TRUE` mean the same, whatever is
added. -/
theorem truth_foldl_combined_none (v : Expression → Operator → Expression → Truth)
    {additions : List (Connective × Predicate)}
    (h : ∀ p rest, additions ≠ (.or, p) :: rest) :
    Predicate.truth? v
        (additions.foldl (fun present a => combined (Predicate.extend a.1) present a.2) none) =
      additions.foldl (fun x a => a.1.apply x (a.2.truth v)) .holds := by
  cases additions with
  | nil => rfl
  | cons a additions =>
    obtain ⟨c, p⟩ := a
    cases c with
    | and =>
      -- the first predicate stands alone as a filter, which is what `TRUE AND` it means
      have hleft : Truth.holds.and (p.truth v) = p.truth v := by cases p.truth v <;> rfl
      rw [List.foldl_cons, List.foldl_cons]
      simp only [Connective.apply, hleft]
      exact truth_foldl_combined v additions p
    | or => exact absurd rfl (h p additions)

/-- What the calls leave after a join: the condition of the join with the predicates that they
add. -/
theorem run_joinOn_adding {joins : List Join} {j : Join} {m : Condition}
    (hstage : q.stage = .joining) (hjoins : q.joins = joins ++ [j]) (hm : m.Resolves q.tables)
    (hcalls : ∀ call ∈ calls, call.2.Resolves q.tables) :
    q.run (.joinOn m :: calls.map Step.adding) =
      .ok { q with
        stage := .joinFiltered
        joins := joins ++ [{ j with
          condition := (added q.tables calls).foldl
            (fun present a => combined (Predicate.extend a.1) present a.2)
            (some ((Step.predicate? q.tables m).getD (.literal true))) }] } := by
  have hon : q.apply (.joinOn m) = _ := joinOn_eq_ok.mpr ⟨hstage, _, hm.predicate?, rfl⟩
  rw [hjoins, setCondition_concat] at hon
  have htables := (apply_frame hon).2
  simp only [Step.table?, Option.toList_none, List.append_nil] at htables
  rw [← htables] at hcalls
  have hrun := run_adding_of_joinFiltered rfl rfl hcalls
  rw [htables, foldl_addTo_adding] at hrun
  exact run_cons.mpr ⟨_, hon, hrun⟩

/-- What the calls leave as a filter. -/
theorem run_restrict_adding {m : Condition}
    (hstage : q.stage = .rooted ∨ q.stage = .joinFiltered) (hm : m.Resolves q.tables)
    (hcalls : ∀ call ∈ calls, call.2.Resolves q.tables) :
    q.run (.restrict m :: calls.map Step.adding) =
      .ok { q with
        stage := .whereFiltered
        filter := (added q.tables calls).foldl
          (fun present a => combined (Predicate.extend a.1) present a.2)
          (Step.predicate? q.tables m) } := by
  have hwhere : q.apply (.restrict m) = _ := restrict_eq_ok.mpr ⟨hstage, _, hm.predicate?, rfl⟩
  have hrun := run_adding_of_whereFiltered
    (q := { q with filter := Step.predicate? q.tables m, stage := .whereFiltered })
    rfl hcalls
  rw [foldl_addTo_adding] at hrun
  exact run_cons.mpr ⟨_, hwhere, hrun⟩

/-- **Additions to the condition of a join and to the filter.** The same first condition and the
same additions, all of them about the same tables, are accepted after a join and as a filter. The
truth value of the condition of the join is that of the first condition, with `TRUE` for an empty
pattern, and of the additions one after the other. The filter has the same truth value, except that
one without a condition is forgotten by an addition of `or`. -/
theorem truth_joinOn_restrict {base pending unfiltered : Query} {kind : JoinKind} {t : Table}
    (hjoin : base.join kind t = .ok pending)
    (hstage : unfiltered.stage = .rooted ∨ unfiltered.stage = .joinFiltered)
    (htables : unfiltered.tables = pending.tables) {m : Condition}
    (hm : m.Resolves pending.tables) (hcalls : ∀ call ∈ calls, call.2.Resolves pending.tables) :
    ∃ joined filtered on,
      pending.run (.joinOn m :: calls.map Step.adding) = .ok joined ∧
      unfiltered.run (.restrict m :: calls.map Step.adding) = .ok filtered ∧
      joined.joins.getLast?.bind Join.condition = some on ∧
      ∀ v : Expression → Operator → Expression → Truth,
        on.truth v = (added pending.tables calls).foldl (fun x a => a.1.apply x (a.2.truth v))
          (Predicate.truth? v (Step.predicate? pending.tables m)) ∧
        (¬ ForgetsTruth pending.tables m calls →
          Predicate.truth? v filtered.filter = on.truth v) ∧
        ∀ p rest, Step.predicate? pending.tables m = none →
          added pending.tables calls = (.or, p) :: rest →
          Predicate.truth? v filtered.filter =
            rest.foldl (fun x a => a.1.apply x (a.2.truth v)) (p.truth v) := by
  have hstagePending : pending.stage = .joining := by
    obtain ⟨-, -, -, rfl⟩ := join_eq_ok.mp hjoin
    rfl
  have hjoins : pending.joins = base.joins ++ [{ kind, table := t }] := by
    obtain ⟨-, -, -, rfl⟩ := join_eq_ok.mp hjoin
    rfl
  have hon := run_joinOn_adding hstagePending hjoins hm hcalls
  have hwhere := run_restrict_adding hstage (by rwa [htables]) (by rwa [htables])
  rw [htables] at hwhere
  rw [foldl_combined_some] at hon
  refine ⟨_, _, _, hon, hwhere, by rw [List.getLast?_concat]; rfl,
    fun v => ⟨?_, fun hkept => ?_, fun p rest hnone hor => ?_⟩⟩
  · rw [Predicate.truth_foldl]
    cases Step.predicate? pending.tables m <;> rfl
  · rw [Predicate.truth_foldl]
    cases hfirst : Step.predicate? pending.tables m with
    | some first => exact truth_foldl_combined v _ first
    | none => exact truth_foldl_combined_none v fun p rest hor => hkept ⟨hfirst, p, rest, hor⟩
  · simp only [hnone, hor]
    exact truth_foldl_combined v rest p

/-- A table with one column, for the runs below. -/
def oneColumn (table column : String) : Table :=
  ⟨table, .path [table], [{ name := column, type := .number }]⟩

/-- Two additions to a pattern with an entry, the second of which adds nothing. -/
theorem truth_joinOn_restrict_pattern :
    let m := Condition.pattern [.field "x" (.literal (.integer 1))]
    let calls : List (Connective × Condition) :=
      [(.or, .pattern [.field "y" (.literal (.integer 2))]), (.and, .pattern [])]
    ∃ pending unfiltered joined filtered on,
      (ofTable .sqlite (oneColumn "a" "x")).join .inner (oneColumn "b" "y") = .ok pending ∧
      pending.run [.joinOn (.pattern [])] = .ok unfiltered ∧
      pending.run (.joinOn m :: calls.map Step.adding) = .ok joined ∧
      unfiltered.run (.restrict m :: calls.map Step.adding) = .ok filtered ∧
      joined.joins.getLast?.bind Join.condition = some on ∧
      ∀ v, Predicate.truth? v filtered.filter = on.truth v := by
  intro m calls
  obtain ⟨pending, hjoin, unfiltered, hon, hstage, htables, hm, hcalls⟩ : ∃ pending,
      (ofTable .sqlite (oneColumn "a" "x")).join .inner (oneColumn "b" "y") = .ok pending ∧
      ∃ unfiltered, pending.run [.joinOn (.pattern [])] = .ok unfiltered ∧
      unfiltered.stage = .joinFiltered ∧ unfiltered.tables = pending.tables ∧
      m.Resolves pending.tables ∧ ∀ call ∈ calls, call.2.Resolves pending.tables :=
    ⟨_, rfl, _, rfl, rfl, rfl, ⟨_, rfl⟩,
      List.forall_mem_cons.mpr ⟨⟨_, rfl⟩, List.forall_mem_singleton.mpr ⟨_, rfl⟩⟩⟩
  obtain ⟨joined, filtered, on, hjoined, hfiltered, hlast, htruth⟩ :=
    truth_joinOn_restrict hjoin (.inr hstage) htables hm hcalls
  refine ⟨pending, unfiltered, joined, filtered, on, hjoin, hon, hjoined, hfiltered, hlast,
    fun v => (htruth v).2.1 ?_⟩
  rintro ⟨hnone, -⟩
  obtain rfl := Except.ok.inj hjoin
  cases hnone

/-- An empty pattern and an addition of `or` that is not true: the condition of the join holds, and
the filter does not. -/
theorem joinOn_restrict_differ_empty_or :
    let m := Condition.pattern []
    let calls : List (Connective × Condition) :=
      [(.or, .pattern [.field "x" (.literal (.integer 1))])]
    ∃ pending unfiltered joined filtered on,
      (ofTable .sqlite (oneColumn "a" "x")).join .inner (oneColumn "b" "y") = .ok pending ∧
      pending.run [.joinOn m] = .ok unfiltered ∧
      pending.run (.joinOn m :: calls.map Step.adding) = .ok joined ∧
      unfiltered.run (.restrict m :: calls.map Step.adding) = .ok filtered ∧
      joined.joins.getLast?.bind Join.condition = some on ∧
      on.truth (fun _ _ _ => .fails) = .holds ∧
      Predicate.truth? (fun _ _ _ => .fails) filtered.filter = .fails :=
  ⟨_, _, _, _, _, rfl, rfl, rfl, rfl, rfl, rfl, rfl⟩

end Query

end Discography
