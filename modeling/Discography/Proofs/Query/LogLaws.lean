import Discography.Proofs.Query.CallLog

/-!
# Laws of the log of a query

The statements of a query depend on the clauses that stand in the list of operations that leads to
it. Hence a projection makes all earlier shaping void, operations on different parts of the shape
commute, and an addition to a condition reaches the condition set last and nothing else.

## Main results

* `Query.statements_eq`: queries with equal clauses have equal statements
* `Query.run_select_erases`: a projection after shaping is a projection without it
* `Query.run_comm`: orders, limits and offsets commute
* `Query.summary_of_run`: all of this for the list that leads to a query
-/

namespace Discography.Query

open Summary

variable {q r : Query} {s : Step}

/-! ### Statements depend on the clauses -/

/-- A query waits for a condition exactly when its last join has none. -/
theorem Invariant.stage_eq_joining_iff (hq : q.Invariant) :
    q.stage = .joining ↔ ∃ j ∈ q.joins.getLast?, j.condition = none := by
  constructor
  · intro hstage
    have hne := hq.joins_ne_nil (.inl hstage)
    refine ⟨_, List.getLast?_eq_some_getLast hne, ?_⟩
    exact (hq.last_condition _ (List.getLast?_eq_some_getLast hne)).2 hstage
  · rintro ⟨j, hj, hnone⟩
    exact (hq.last_condition j hj).1 hnone

theorem ensureNotJoining_eq {q' : Query} (hq : q.Invariant) (hq' : q'.Invariant)
    (hjoins : q'.joins = q.joins) (op : Operation) :
    q'.ensureNotJoining op = q.ensureNotJoining op := by
  have hiff : q'.stage = .joining ↔ q.stage = .joining := by
    rw [hq.stage_eq_joining_iff, hq'.stage_eq_joining_iff, hjoins]
  rw [ensureNotJoining, ensureNotJoining]
  by_cases h : q.stage = .joining
  · simp [hiff.2 h, h, illegal]
  · simp [mt hiff.1 h, h]

/-- Queries for one table with equal clauses have equal statements, and refuse them alike. -/
theorem statements_eq {q' : Query} (hq : q.Invariant) (hq' : q'.Invariant)
    (hdialect : q'.dialect = q.dialect) (hprimary : q'.primary = q.primary)
    (hsummary : q'.summary = q.summary) :
    q'.render = q.render ∧ q'.renderCount = q.renderCount ∧
      ∀ aliasName, q'.asTable aliasName = q.asTable aliasName := by
  obtain ⟨hjoins, hfilter, hprojection, horder, hlimit, hoffset⟩ := Summary.mk.inj hsummary
  have hjoining := ensureNotJoining_eq hq hq' hjoins
  -- of the two queries only the stage may differ, and no statement shows it
  have hq'eq : q' = { q with stage := q'.stage } := by
    cases q
    cases q'
    simp_all
  have hselect : q'.selectSql = q.selectSql := by
    rw [hq'eq]
    rfl
  have hcount : q'.countSql = q.countSql := by
    rw [hq'eq]
    rfl
  have hmapper : q'.mapper = q.mapper := by
    rw [hq'eq]
    rfl
  have heffective : q'.effectiveProjection = q.effectiveProjection := by
    rw [hq'eq]
    rfl
  have hoptional : q'.optionalAliases = q.optionalAliases := by
    rw [hq'eq]
    rfl
  refine ⟨?_, ?_, fun aliasName => ?_⟩
  · rw [render, render, hjoining, hselect, hmapper]
  · rw [renderCount, renderCount, hjoining, hcount]
  · rw [asTable, asTable, hjoining, heffective, hselect, hoptional]

/-! ### Checks depend on the tables -/

theorem ensureInScope_congr {q' : Query} (h : q'.tables = q.tables) (c : Column) :
    q'.ensureInScope c = q.ensureInScope c := by
  simp only [ensureInScope, table?, h]

theorem ensureTerm_congr {q' : Query} (h : q'.tables = q.tables) (t : OrderTerm) :
    q'.ensureTerm t = q.ensureTerm t := by
  simp only [ensureTerm, ensureInScope_congr h]

mutual

theorem checkProjection_congr {q' : Query} (h : q'.tables = q.tables) :
    ∀ p : Projection, q'.checkProjection p = q.checkProjection p
  | .column c => ensureInScope_congr h c
  | .object [] => rfl
  | .object (field :: fields) => checkFields_congr h (field :: fields) []

theorem checkFields_congr {q' : Query} (h : q'.tables = q.tables) :
    ∀ (fields : List (String × Projection)) (seen : List String),
      q'.checkFields seen fields = q.checkFields seen fields
  | [], _ => rfl
  | (key, p) :: rest, seen => by
    rw [checkFields, checkFields, checkProjection_congr h p,
      checkFields_congr h rest (seen ++ [key])]

end

/-! ### A projection erases the shape before it -/

theorem select_of_shaped {p : Projection} {r' : Query} (hq : q.Invariant) (hs : s.isShaping)
    (h : q.apply s = .ok r) (hp : r.select p = .ok r') : q.select p = .ok r' := by
  obtain ⟨hstage, projection, order, limit, offset, rfl⟩ := shape_of_apply hq hs h
  obtain ⟨-, hcheck, rfl⟩ := select_eq_ok.1 hp
  -- the projection is checked against the tables, and shaping adds none
  have hcheck' : q.checkProjection p = .ok () := by
    rw [← hcheck]
    symm
    exact checkProjection_congr (by rfl) p
  exact select_eq_ok.2 ⟨hstage, hcheck', rfl⟩

/-- A projection after any shaping leads where the projection alone leads. -/
theorem run_select_erases {p : Projection} {steps : List Step} (hq : q.Invariant)
    (hs : ∀ s ∈ steps, s.isShaping) (h : q.run (steps ++ [.select p]) = .ok r) :
    q.run [.select p] = .ok r := by
  induction steps generalizing q with
  | nil => exact h
  | cons s steps ih =>
    obtain ⟨q', hq', hrest⟩ := run_cons.1 h
    -- the operations are erased from behind: the last one first, then those before it
    have hselect := ih (hq.apply hq') (fun s' hs' => hs s' (by simp [hs'])) hrest
    obtain ⟨r', hr', hnil⟩ := run_cons.1 hselect
    exact run_cons.2 ⟨r', select_of_shaped hq (hs s (by simp)) hq' hr', hnil⟩

/-! ### Orders, limits and offsets commute -/

/-- Whether an operation sets the order or limits of a query. -/
def Step.setsPart : Step → Bool
  | orderBy _ | take _ | skip _ | paginate _ => true
  | _ => false

/-- The operations set different parts of the shape. -/
def Step.Independent (a b : Step) : Prop :=
  (a.firstTerm? = none ∨ b.firstTerm? = none) ∧ (a.limit? = none ∨ b.limit? = none) ∧
    (a.offset? = none ∨ b.offset? = none)

/-- The query with the parts of the shape that an operation sets. -/
def withPart (q : Query) (s : Step) : Query :=
  { q with
    order := s.firstTerm?.elim q.order fun t => [t]
    limit := s.limit?.or q.limit
    offset := s.offset?.or q.offset
    stage := .shaping }

theorem apply_setsPart (hs : s.setsPart) :
    q.apply s = .ok r ↔ q.stage ≠ .joining ∧
      (∀ t ∈ s.firstTerm?, q.ensureTerm t = .ok ()) ∧ r = q.withPart s := by
  cases s with
  | orderBy t => simp [apply, orderBy_eq_ok, withPart, Step.firstTerm?, Step.limit?, Step.offset?]
  | take n => simp [apply, take_eq_ok, withPart, Step.firstTerm?, Step.limit?, Step.offset?]
  | skip n => simp [apply, skip_eq_ok, withPart, Step.firstTerm?, Step.limit?, Step.offset?]
  | paginate page =>
    simp [apply, paginate_eq_ok, withPart, Step.firstTerm?, Step.limit?, Step.offset?]
  | _ => exact absurd hs (by simp [Step.setsPart])

theorem withPart_comm {a b : Step} (h : a.Independent b) :
    (q.withPart a).withPart b = (q.withPart b).withPart a := by
  obtain ⟨hfirst, hlimit, hoffset⟩ := h
  simp only [withPart, mk.injEq, true_and, and_true]
  refine ⟨?_, ?_, ?_⟩
  · rcases hfirst with h | h <;> simp [h]
  · rcases hlimit with h | h <;> simp [h]
  · rcases hoffset with h | h <;> simp [h]

theorem apply_comm {a b : Step} {q' : Query} (ha : a.setsPart) (hb : b.setsPart)
    (hab : a.Independent b) (h : q.apply a = .ok q') (h' : q'.apply b = .ok r) :
    ∃ q'', q.apply b = .ok q'' ∧ q''.apply a = .ok r := by
  obtain ⟨hstage, hcheck, rfl⟩ := (apply_setsPart ha).1 h
  obtain ⟨-, hcheck', rfl⟩ := (apply_setsPart hb).1 h'
  refine ⟨q.withPart b, (apply_setsPart hb).2 ⟨hstage, fun t ht => ?_, rfl⟩,
    (apply_setsPart ha).2 ⟨by simp [withPart], fun t ht => ?_, withPart_comm hab⟩⟩
  -- terms of an order are checked against the tables, and neither operation adds one
  · rw [← hcheck' t ht]
    symm
    exact ensureTerm_congr rfl t
  · rw [← hcheck t ht]
    exact ensureTerm_congr rfl t

/-- Two operations on different parts of the shape may change places. -/
theorem run_comm {a b : Step} {steps : List Step} (ha : a.setsPart) (hb : b.setsPart)
    (hab : a.Independent b) (h : q.run (a :: b :: steps) = .ok r) :
    q.run (b :: a :: steps) = .ok r := by
  obtain ⟨q', hq', hrest⟩ := run_cons.1 h
  obtain ⟨q'', hq'', hrest⟩ := run_cons.1 hrest
  obtain ⟨p, hp, hp'⟩ := apply_comm ha hb hab hq' hq''
  exact run_cons.2 ⟨p, hp, run_cons.2 ⟨q'', hp', hrest⟩⟩

/-! ### Additions reach the condition set last -/

/-- The second query differs from the first one in the condition set last only: the filter where it
is set, and the condition of the last join elsewhere. -/
def ExtendsLast (q r : Query) : Prop :=
  (q.stage = .whereFiltered ∧ ∃ p, r = { q with filter := p }) ∨
    (q.stage = .joinFiltered ∧ ∃ joins j p, q.joins = joins ++ [j] ∧
      r = { q with joins := joins ++ [{ j with condition := p }] })

theorem extendsLast_of_extendPredicate {op : Operation}
    {combine : Predicate → Predicate → Predicate} {c : Condition} (hq : q.Invariant)
    (h : q.extendPredicate op combine c = .ok r) : q.ExtendsLast r := by
  obtain ⟨hstage, p, -, h⟩ := extendPredicate_eq_ok.1 h
  -- the stage tells which of the two conditions was set last
  rcases hstage with hwhere | hon
  · obtain ⟨-, rfl⟩ | ⟨a, -, ⟨-, rfl⟩ | ⟨hon, -⟩⟩ := h
    · exact .inl ⟨hwhere, _, rfl⟩
    · exact .inl ⟨hwhere, _, rfl⟩
    · simp [hwhere] at hon
  · obtain ⟨joins, j, hjoins⟩ :=
      (List.eq_nil_or_concat' q.joins).resolve_left (hq.joins_ne_nil (.inr hon))
    refine .inr ⟨hon, joins, j, ?_⟩
    obtain ⟨-, rfl⟩ | ⟨a, -, ⟨hwhere, -⟩ | ⟨-, j', hj', rfl⟩⟩ := h
    · exact ⟨_, hjoins, by rw [← hjoins]⟩
    · simp [hon] at hwhere
    · exact ⟨_, hjoins, by rw [hjoins, setCondition_concat]⟩

/-! ### The log of a query -/

/-- A query has the clauses that stand in the list of operations that leads to it. -/
theorem summary_eq_ofLog {d : Dialect} {t : Table} {steps : List Step}
    (h : (ofTable d t).run steps = .ok q) : q.summary = Summary.ofLog t steps := by
  have hstart := invariant_ofTable d t
  have hshape := shapedBy_of_run h
  have hjoins : q.joins = joinsOfLog [t] steps := joins_of_run hstart h
  have hfilter : q.filter = filterOfLog [t] steps := filter_of_run hstart h
  rw [summary, ofLog, hjoins, hfilter, hshape.projection, hshape.order, hshape.limit, hshape.offset]

theorem frame_of_run {d : Dialect} {t : Table} {steps : List Step}
    (h : (ofTable d t).run steps = .ok q) : q.dialect = d ∧ q.primary = t := by
  refine run_preserves (P := fun q => q.dialect = d ∧ q.primary = t) (fun s hs hq => ?_) h
    ⟨rfl, rfl⟩
  obtain ⟨hdialect, htables⟩ := apply_frame hs
  exact ⟨hdialect.trans hq.1, (List.cons_eq_cons.1 htables).1.trans hq.2⟩

/-- The clauses of a query, and so its statements and the mapper of its rows, are those that stand
in the list of operations that leads to it. A projection erases all shaping before it, operations on
different parts of the shape commute, and an addition to a condition changes no other one. -/
theorem summary_of_run {d : Dialect} {t : Table} {steps : List Step}
    (h : (ofTable d t).run steps = .ok q) :
    (q.dialect = d ∧ q.primary = t ∧ q.summary = Summary.ofLog t steps) ∧
    (∀ (steps' : List Step) (q' : Query), (ofTable d t).run steps' = .ok q' →
      Summary.ofLog t steps' = Summary.ofLog t steps →
        q'.render = q.render ∧ q'.renderCount = q.renderCount ∧
          ∀ aliasName, q'.asTable aliasName = q.asTable aliasName) ∧
    (∀ (before shaping behind : List Step) (p : Projection),
      steps = before ++ shaping ++ .select p :: behind → (∀ s ∈ shaping, s.isShaping) →
        (ofTable d t).run (before ++ .select p :: behind) = .ok q) ∧
    (∀ (before behind : List Step) (a b : Step), steps = before ++ a :: b :: behind →
      a.setsPart → b.setsPart → a.Independent b →
        (ofTable d t).run (before ++ b :: a :: behind) = .ok q) ∧
    ∀ (c : Condition) (r : Query), (q.and c = .ok r ∨ q.or c = .ok r) → q.ExtendsLast r := by
  have hstart := invariant_ofTable d t
  have hq := hstart.run h
  obtain ⟨hdialect, hprimary⟩ := frame_of_run h
  have hsummary := summary_eq_ofLog h
  refine ⟨⟨hdialect, hprimary, hsummary⟩, fun steps' q' h' heq => ?_,
    fun before shaping behind p hsteps hs => ?_, fun before behind a b hsteps ha hb hab => ?_,
    fun c r hr => ?_⟩
  -- equal lists of clauses make equal queries, up to the stage
  · obtain ⟨hdialect', hprimary'⟩ := frame_of_run h'
    exact statements_eq hq (hstart.run h') (hdialect'.trans hdialect.symm)
      (hprimary'.trans hprimary.symm) (by rw [summary_eq_ofLog h', heq, hsummary])
  -- the run is cut in front of the shaping and behind the projection
  · have hsplit : steps = before ++ ((shaping ++ [.select p]) ++ behind) := by simp [hsteps]
    rw [hsplit] at h
    obtain ⟨q₁, hbefore, hrest⟩ := run_append.1 h
    obtain ⟨q₂, hshaping, hbehind⟩ := run_append.1 hrest
    have herased := run_select_erases (hstart.run hbefore) hs hshaping
    have hselect : q₁.run ([.select p] ++ behind) = .ok q := run_append.2 ⟨q₂, herased, hbehind⟩
    exact run_append.2 ⟨q₁, hbefore, hselect⟩
  · rw [hsteps] at h
    obtain ⟨q₁, hbefore, hrest⟩ := run_append.1 h
    exact run_append.2 ⟨q₁, hbefore, run_comm ha hb hab hrest⟩
  · rcases hr with hr | hr
    · exact extendsLast_of_extendPredicate hq hr
    · exact extendsLast_of_extendPredicate hq hr

/-- A limit and an order in front of a projection are void, and those behind it count. -/
theorem summary_of_run_void_shape :
    ∃ q : Query,
      (ofTable .mysql ⟨"a", .path ["a"], [{ name := "x", type := .number }]⟩).run
        [.join .left ⟨"b", .path ["b"], [{ name := "x", type := .number }]⟩,
          .joinOn (.pattern []), .or (.predicate (.literal false)),
          .restrict (.predicate (.literal true)), .take 5, .orderBy ⟨.key "k", none⟩,
          .select (.object [("k", .column ⟨.path ["b"], "b", { name := "x", type := .number }⟩)]),
          .skip 7, .take 2] = .ok q ∧
      (ofTable .mysql ⟨"a", .path ["a"], [{ name := "x", type := .number }]⟩).run
        [.join .left ⟨"b", .path ["b"], [{ name := "x", type := .number }]⟩,
          .joinOn (.pattern []), .or (.predicate (.literal false)),
          .restrict (.predicate (.literal true)),
          .select (.object [("k", .column ⟨.path ["b"], "b", { name := "x", type := .number }⟩)]),
          .skip 7, .take 2] = .ok q ∧
      (q.order.length, q.limit, q.offset) = (0, some 2, some 7) :=
  Outcome.exists_ok_and (by decide +kernel) fun _ h =>
    (summary_of_run h).2.2.1 [_, _, _, _] [_, _] [_, _] _ rfl (by simp [Step.isShaping])

end Discography.Query
