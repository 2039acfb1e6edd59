import Discography.Execution.Fetch
import Discography.Proofs.Execution.Transcript
import Discography.Proofs.Query.Acceptable
import Discography.Proofs.Query.Grammar
import Discography.Proofs.Query.InsertedRows
import Discography.Proofs.Query.LogLaws

/-!
# Which calls are legal

Calls with acceptable arguments succeed exactly if their sequence is a prefix of a word of the
grammar. What a query may be used for afterwards depends on the calls as well: it can be rendered
and fetched unless a join waits for its condition, rows can be inserted and truncated as long as
nothing was called, and rows can be updated and deleted if there is at most a filter.

The stage of a query and its order are a phase of the grammar, and every operation checks no more
than the phase and its arguments.

## Main definitions

* `Query.phase`: what a query knows of the calls so far
* `Query.Fetches`, `Query.RefusesFetch`: what becomes of a query that is fetched
* `Query.Judged`: when a change of rows is accepted, not supported, or misused
* `Query.UsableAfter`: what a query may be used for after some calls

## Main results

* `Query.next?_of_apply`, `Query.exists_apply`: an operation follows the phases
* `Query.follow_of_run`, `Query.exists_run`: so do several
* `Query.run_succeeds_iff_legal`: legal calls and what a query may be used for after them
-/

namespace Discography.Query

variable {σ : Type} {q r : Query} {s : Step} {steps : List Step} {p : Phase}

/-! ### Operations follow the phases -/

/-- What a query knows of the calls so far. -/
def phase (q : Query) : Phase := ⟨q.stage, !q.order.isEmpty⟩

theorem next?_of_extendPredicate {op : Operation}
    {combine : Predicate → Predicate → Predicate} {c : Condition}
    (h : q.extendPredicate op combine c = .ok r) :
    (q.phase.stage = .whereFiltered ∨ q.phase.stage = .joinFiltered) ∧ r.phase = q.phase := by
  obtain ⟨hstage, p, -, ⟨-, rfl⟩ | ⟨a, -, ⟨-, rfl⟩ | ⟨-, j, -, rfl⟩⟩⟩ := extendPredicate_eq_ok.mp h
  · exact ⟨hstage, rfl⟩
  · exact ⟨hstage, rfl⟩
  · exact ⟨hstage, rfl⟩

/-- An operation that succeeds is legal at the phase, and leads to the next one. -/
theorem next?_of_apply (h : q.apply s = .ok r) : q.phase.next? s.verb = some r.phase := by
  cases s with
  | restrict c =>
    obtain ⟨hstage, p, -, rfl⟩ := restrict_eq_ok.mp h
    exact if_pos hstage
  | joinOn c =>
    obtain ⟨hstage, p, -, rfl⟩ := joinOn_eq_ok.mp h
    exact if_pos hstage
  | and c | or c =>
    obtain ⟨hstage, hphase⟩ := next?_of_extendPredicate h
    rw [hphase]
    exact if_pos hstage
  | join kind t =>
    obtain ⟨hstage, -, -, rfl⟩ := join_eq_ok.mp h
    exact if_pos hstage
  | select p =>
    obtain ⟨hstage, -, rfl⟩ := select_eq_ok.mp h
    exact if_pos hstage
  | orderBy t =>
    obtain ⟨hstage, -, rfl⟩ := orderBy_eq_ok.mp h
    exact if_pos hstage
  | thenBy t =>
    obtain ⟨horder, -, rfl⟩ := thenBy_eq_ok.mp h
    have hordered : q.phase.ordered := by simpa [phase] using horder
    have hphase : ({ q with order := q.order ++ [t] } : Query).phase = q.phase := by
      cases hterms : q.order with
      | nil => exact absurd hterms horder
      | cons first rest => simp [phase, hterms]
    rw [hphase]
    exact if_pos hordered
  | take n =>
    obtain ⟨hstage, rfl⟩ := take_eq_ok.mp h
    exact if_pos hstage
  | skip n =>
    obtain ⟨hstage, rfl⟩ := skip_eq_ok.mp h
    exact if_pos hstage
  | paginate page =>
    obtain ⟨hstage, rfl⟩ := paginate_eq_ok.mp h
    exact if_pos hstage

theorem exists_extendPredicate (hq : q.Invariant) (op : Operation)
    (combine : Predicate → Predicate → Predicate) {c : Condition} (hc : c.Resolves q.tables)
    (hstage : q.stage = .whereFiltered ∨ q.stage = .joinFiltered) :
    ∃ r, q.extendPredicate op combine c = .ok r := by
  obtain ⟨p, hp⟩ := hc
  cases p with
  | none => exact ⟨q, extendPredicate_eq_ok.mpr ⟨hstage, none, hp, .inl ⟨rfl, rfl⟩⟩⟩
  | some a =>
    rcases hstage with hstage | hstage
    · exact ⟨_, extendPredicate_eq_ok.mpr
        ⟨.inl hstage, some a, hp, .inr ⟨a, rfl, .inl ⟨hstage, rfl⟩⟩⟩⟩
    · obtain ⟨joins, j, hjoins⟩ :=
        (List.eq_nil_or_concat' q.joins).resolve_left (hq.joins_ne_nil (.inr hstage))
      exact ⟨_, extendPredicate_eq_ok.mpr
        ⟨.inr hstage, some a, hp, .inr ⟨a, rfl, .inr ⟨hstage, j, by simp [hjoins], rfl⟩⟩⟩⟩

/-- An operation that is legal at the phase succeeds with acceptable arguments. -/
theorem exists_apply (hq : q.Invariant) (hs : s.Acceptable q.tables)
    (h : q.phase.next? s.verb = some p) : ∃ r, q.apply s = .ok r := by
  cases s with
  | restrict c =>
    obtain ⟨hstage, -⟩ := Option.ite_none_right_eq_some.mp h
    obtain ⟨⟨p, hp⟩, -⟩ := hs
    exact ⟨_, restrict_eq_ok.mpr ⟨hstage, p, hp, rfl⟩⟩
  | joinOn c =>
    obtain ⟨hstage, -⟩ := Option.ite_none_right_eq_some.mp h
    obtain ⟨⟨p, hp⟩, -⟩ := hs
    exact ⟨_, joinOn_eq_ok.mpr ⟨hstage, p, hp, rfl⟩⟩
  | and c | or c =>
    obtain ⟨hstage, -⟩ := Option.ite_none_right_eq_some.mp h
    exact exists_extendPredicate hq _ _ hs.1 hstage
  | join kind t =>
    obtain ⟨hstage, -⟩ := Option.ite_none_right_eq_some.mp h
    exact ⟨_, join_eq_ok.mpr ⟨hstage, hs.1, hs.2, rfl⟩⟩
  | select p =>
    obtain ⟨hstage, -⟩ := Option.ite_none_right_eq_some.mp h
    have hvalid := checkProjection_of_valid hq.nodup_aliases hs
    exact ⟨_, select_eq_ok.mpr ⟨hstage, hvalid, rfl⟩⟩
  | orderBy t =>
    obtain ⟨hstage, -⟩ := Option.ite_none_right_eq_some.mp h
    exact ⟨_, orderBy_eq_ok.mpr ⟨hstage, ensureTerm_of_inScope hq.nodup_aliases hs, rfl⟩⟩
  | thenBy t =>
    obtain ⟨hordered, -⟩ := Option.ite_none_right_eq_some.mp h
    have horder : q.order ≠ [] := by simpa [phase] using hordered
    exact ⟨_, thenBy_eq_ok.mpr ⟨horder, ensureTerm_of_inScope hq.nodup_aliases hs, rfl⟩⟩
  | take n =>
    obtain ⟨hstage, -⟩ := Option.ite_none_right_eq_some.mp h
    exact ⟨_, take_eq_ok.mpr ⟨hstage, rfl⟩⟩
  | skip n =>
    obtain ⟨hstage, -⟩ := Option.ite_none_right_eq_some.mp h
    exact ⟨_, skip_eq_ok.mpr ⟨hstage, rfl⟩⟩
  | paginate page =>
    obtain ⟨hstage, -⟩ := Option.ite_none_right_eq_some.mp h
    exact ⟨_, paginate_eq_ok.mpr ⟨hstage, rfl⟩⟩

theorem follow_of_run (h : q.run steps = .ok r) :
    q.phase.follow (steps.map Step.verb) = some r.phase := by
  induction steps generalizing q with
  | nil =>
    obtain rfl := Except.ok.inj h
    rfl
  | cons s steps ih =>
    obtain ⟨q', hs, hrest⟩ := run_cons.mp h
    rw [List.map_cons, Phase.follow_cons, next?_of_apply hs, Option.bind_some, ih hrest]

theorem exists_run (hq : q.Invariant) (hsteps : AllAcceptable q.tables steps)
    (h : q.phase.follow (steps.map Step.verb) = some p) : ∃ r, q.run steps = .ok r := by
  induction steps generalizing q with
  | nil => exact ⟨q, rfl⟩
  | cons s steps ih =>
    rw [List.map_cons, Phase.follow_cons] at h
    obtain ⟨p', hnext, hrest⟩ := Option.bind_eq_some_iff.mp h
    obtain ⟨q', hs⟩ := exists_apply hq hsteps.1 hnext
    -- the phase after the operation is the one that the rest begins with
    obtain rfl := Option.some.inj ((next?_of_apply hs).symm.trans hnext)
    obtain ⟨-, htables⟩ := apply_frame hs
    obtain ⟨r, hr⟩ := ih (hq.apply hs) (by rw [htables]; exact hsteps.2) hrest
    exact ⟨r, run_cons.mpr ⟨q', hs, hr⟩⟩

/-- A query has joins exactly if some of the calls were joins. -/
theorem joins_eq_nil_iff_of_run (h : q.run steps = .ok r) :
    r.joins = [] ↔ q.joins = [] ∧ .join ∉ steps.map Step.verb := by
  induction steps generalizing q with
  | nil =>
    obtain rfl := Except.ok.inj h
    simp
  | cons s steps ih =>
    obtain ⟨q', hs, hrest⟩ := run_cons.mp h
    obtain ⟨-, htables⟩ := apply_frame hs
    have hlength := congrArg List.length htables
    simp only [tables, List.length_cons, List.length_map, List.length_append] at hlength
    have hverb : s.table?.toList.length = 0 ↔ s.verb ≠ .join := by
      cases s <;> simp [Step.table?, Step.verb]
    have hjoins : q'.joins = [] ↔ q.joins = [] ∧ s.verb ≠ .join := by
      rw [← List.length_eq_zero_iff, ← List.length_eq_zero_iff, ← hverb]
      omega
    rw [ih hrest, hjoins, List.map_cons, List.mem_cons, not_or, and_assoc, ne_comm]

/-! ### Reading -/

theorem exists_render_iff (hq : q.FiniteConditions) :
    (∃ r, q.render = .ok r) ↔ q.stage ≠ .joining := by
  simp only [render_eq_ok]
  constructor
  · rintro ⟨r, hstage, -⟩
    exact hstage
  · intro hstage
    obtain ⟨sql, hsql⟩ := exists_selectSql hq
    exact ⟨⟨sql, q.mapper⟩, hstage, hsql, rfl⟩

theorem exists_renderCount_iff (hq : q.FiniteConditions) :
    (∃ sql, q.renderCount = .ok sql) ↔ q.stage ≠ .joining := by
  simp only [renderCount_eq_ok]
  constructor
  · rintro ⟨sql, hstage, -⟩
    exact hstage
  · intro hstage
    obtain ⟨sql, hsql⟩ := exists_countSql hq
    exact ⟨sql, hstage, hsql⟩

/-- The statement of the query is run, and its rows become records. -/
def Fetches (q : Query) (conn : Connection σ) : Prop :=
  (q.fetch conn.recorded).Conforms conn.host fun t result =>
    ∃ rendered, q.render = .ok rendered ∧
    ∃ reply : Call.Reply ⟨conn.inTransaction, .query rendered.sql.text⟩,
      t = [⟨⟨conn.inTransaction, .query rendered.sql.text⟩, reply⟩] ∧
      result = (reply.mapError fun failure => .error (.host failure)).bind fun rows =>
        (rendered.mapper.mapRows rows).mapError .error

/-- Nothing is asked of the database, because the query is misused. -/
def RefusesFetch (q : Query) (conn : Connection σ) : Prop :=
  (q.fetch conn.recorded).Conforms conn.host fun t result =>
    t = [] ∧ result = .error (.error (.misuse (.illegal .render q.stage)))

theorem fetches_of_render {rendered : Rendered} (h : q.render = .ok rendered)
    (conn : Connection σ) : q.Fetches conn := by
  rw [Fetches, fetch, h, Session.ofExcept_ok_bind]
  refine Session.Conforms.report_bind (Connection.conforms_perform_bind conn (fun rows => ?_)
    fun failure => ?_)
  · refine Session.Conforms.report_bind (Session.conforms_ofExcept ?_)
    exact ⟨rendered, rfl, .ok rows, rfl, rfl⟩
  · exact ⟨rendered, rfl, .error failure, rfl, rfl⟩

theorem refusesFetch_of_joining (h : q.stage = .joining) (conn : Connection σ) :
    q.RefusesFetch conn := by
  have hrender : q.render = .error (.misuse (.illegal .render q.stage)) := by
    rw [render, ensureNotJoining, if_pos h]
    rfl
  rw [RefusesFetch, fetch, hrender, Session.ofExcept_error_bind]
  exact Session.conforms_fail ⟨rfl, rfl⟩

/-! ### Changes -/

/-- The rows are some, they assign columns of the table, and their reals are finite. -/
structure AcceptableRows (t : Table) (rows : List Assignments) : Prop where
  ne_nil : rows ≠ []
  columns : ∀ row ∈ rows, ∀ column ∈ row.columns, ∃ a ∈ t.attributes, a.name = column
  finite : ∀ row ∈ rows, ∀ e ∈ row.entries, e.2.IsFinite

/-- An update is judged as the rows of an insertion are. -/
abbrev AcceptableAssignments (t : Table) (assignments : Assignments) : Prop :=
  assignments.entries ≠ [] ∧ AcceptableRows t [assignments]

theorem exists_sql_of_mem_insertCommands {rows : List Assignments}
    (hfinite : ∀ row ∈ rows, ∀ e ∈ row.entries, e.2.IsFinite) :
    ∀ command ∈ q.insertCommands rows, ∃ sql, command.sql q.dialect = .ok sql := by
  intro command hcommand
  rw [insertCommands] at hcommand
  split at hcommand
  · exact exists_sql_of_mem_insertGroup hfinite hcommand _
  · obtain ⟨g, hg, hmem⟩ := List.mem_flatMap.mp hcommand
    have hmembers := (mem_groupRows hg).2
    exact exists_sql_of_mem_insertGroup (fun row hrow => hfinite row (hmembers row hrow).1) hmem _

theorem exists_insertMany_iff (hreal : q.primary.origin.isSubquery = false)
    {rows : List Assignments} (hrows : AcceptableRows q.primary rows) :
    (∃ s, q.insertMany rows = .ok s) ↔ q.stage = .rooted := by
  simp only [insertMany_eq_ok]
  constructor
  · rintro ⟨s, hstage, -⟩
    exact hstage
  · intro hstage
    obtain ⟨batch, hbatch⟩ := Outcome.exists_mapM (exists_sql_of_mem_insertCommands hrows.finite)
    refine ⟨⟨batch⟩, hstage, hreal, hrows.ne_nil, fun column hcolumn => ?_,
      Statement.ofCommands_eq_ok.mpr hbatch⟩
    obtain ⟨row, hrow, hmem⟩ := List.mem_flatMap.mp hcolumn
    exact Table.isSome_column?_iff.mpr (hrows.columns row hrow column hmem)

theorem exists_truncate_iff (hreal : q.primary.origin.isSubquery = false) :
    (∃ s, q.truncate = .ok s) ↔ q.stage = .rooted := by
  simp only [truncate_eq_ok]
  constructor
  · rintro ⟨s, hstage, -⟩
    exact hstage
  · intro hstage
    exact ⟨_, hstage, hreal, Statement.ofCommands_singleton_eq_ok.mpr ⟨_, rfl, rfl⟩⟩

/-- A change of the rows that pass the filter is accepted with at most a filter, not supported with
joins, and misused otherwise. -/
structure Judged (op : Operation) (w : List Verb) (result : Result Statement) : Prop where
  accepted_iff : (∃ s, result = .ok s) ↔ FilterOnly w
  unsupported_iff : result = .error (.unsupported (.overJoins op)) ↔ JoinsUnshaped w
  misuse_iff : (∃ m, result = .error (.misuse m)) ↔ ¬ FilterOnly w ∧ ¬ JoinsUnshaped w

/-- The target of a change is judged by the stage and the joins. -/
theorem judged_of_ensureFilteredTarget {op : Operation} {w : List Verb}
    {result : Result Statement} (hw : Phase.start.follow w = some q.phase)
    (hjoins : q.joins = [] ↔ .join ∉ w) (hreal : q.primary.origin.isSubquery = false)
    (hok : q.ensureFilteredTarget op = .ok () → ∃ s, result = .ok s)
    (herror : ∀ cause, q.ensureFilteredTarget op = .error cause → result = .error cause) :
    Judged op w result := by
  have hfilter : FilterOnly w ↔ q.stage ≠ .joining ∧ q.stage ≠ .shaping ∧ .join ∉ w :=
    Phase.filterOnly_iff hw
  have hunshaped : JoinsUnshaped w ↔ q.stage ≠ .joining ∧ q.stage ≠ .shaping ∧ .join ∈ w :=
    Phase.joinsUnshaped_iff hw
  by_cases hstage : q.stage = .joining ∨ q.stage = .shaping
  · have hresult := herror (.misuse (.illegal op q.stage)) (by
      rw [ensureFilteredTarget]
      rcases hstage with hstage | hstage <;> simp [hstage, illegal])
    have hno : ¬ FilterOnly w ∧ ¬ JoinsUnshaped w := by
      rw [hfilter, hunshaped]
      rcases hstage with hstage | hstage <;> simp [hstage]
    constructor <;> simp [hresult, hno]
  · obtain ⟨hjoining, hshaping⟩ := not_or.mp hstage
    by_cases hempty : q.joins = []
    · have hjoin := hjoins.mp hempty
      obtain ⟨s, hs⟩ := hok (ensureFilteredTarget_eq_ok.mpr ⟨hjoining, hshaping, hempty, hreal⟩)
      have hyes : FilterOnly w := hfilter.mpr ⟨hjoining, hshaping, hjoin⟩
      have hno : ¬ JoinsUnshaped w := fun h => hjoin (hunshaped.mp h).2.2
      constructor <;> simp [hs, hyes, hno]
    · have hresult := herror (.unsupported (.overJoins op)) (by
        rw [ensureFilteredTarget]
        cases hcases : q.stage <;> simp_all)
      have hjoin : .join ∈ w := not_not.mp (mt hjoins.mpr hempty)
      have hyes : JoinsUnshaped w := hunshaped.mpr ⟨hjoining, hshaping, hjoin⟩
      have hno : ¬ FilterOnly w := fun h => (hfilter.mp h).2.2 hjoin
      constructor <;> simp [hresult, hyes, hno]

theorem judged_delete {w : List Verb} (hw : Phase.start.follow w = some q.phase)
    (hjoins : q.joins = [] ↔ .join ∉ w) (hreal : q.primary.origin.isSubquery = false)
    (hfinite : q.FiniteConditions) : Judged .delete w q.delete := by
  refine judged_of_ensureFilteredTarget hw hjoins hreal (fun hok => ?_) fun cause herror => ?_
  · have hreals : ∀ x ∈ (Command.delete q.primary q.filter).reals, x.isFinite :=
      Predicate.isFinite_of_mem_optionalReals hfinite.filter
    obtain ⟨sql, hsql⟩ := (Command.decidedBy_sql q.dialect _).exists_ok_iff.mpr hreals
    exact ⟨⟨[sql]⟩, delete_eq_ok.mpr ⟨ensureFilteredTarget_eq_ok.mp hok,
      Statement.ofCommands_singleton_eq_ok.mpr ⟨sql, hsql, rfl⟩⟩⟩
  · rw [delete, herror]
    rfl

theorem judged_update {w : List Verb} (hw : Phase.start.follow w = some q.phase)
    (hjoins : q.joins = [] ↔ .join ∉ w) (hreal : q.primary.origin.isSubquery = false)
    (hfinite : q.FiniteConditions) {assignments : Assignments}
    (hassignments : AcceptableAssignments q.primary assignments) :
    Judged .update w (q.update assignments) := by
  refine judged_of_ensureFilteredTarget hw hjoins hreal (fun hok => ?_) fun cause herror => ?_
  · have hreals : ∀ x ∈ (Command.update q.primary assignments q.filter).reals, x.isFinite :=
      List.forall_mem_append.mpr
        ⟨Assignments.isFinite_of_mem_reals (hassignments.2.finite assignments (by simp)),
          Predicate.isFinite_of_mem_optionalReals hfinite.filter⟩
    obtain ⟨sql, hsql⟩ := (Command.decidedBy_sql q.dialect _).exists_ok_iff.mpr hreals
    exact ⟨⟨[sql]⟩, update_eq_ok.mpr ⟨ensureFilteredTarget_eq_ok.mp hok,
      by simpa [Assignments.isEmpty] using hassignments.1,
      Statement.ofCommands_singleton_eq_ok.mpr ⟨sql, hsql, rfl⟩⟩⟩
  · rw [update, herror]
    rfl

/-! ### All calls -/

/-- What a query over the table may be used for after the calls of a word. -/
structure UsableAfter (w : List Verb) (t : Table) (q : Query) : Prop where
  render_iff : (∃ r, q.render = .ok r) ↔ ¬ EndsInJoin w
  renderCount_iff : (∃ sql, q.renderCount = .ok sql) ↔ ¬ EndsInJoin w
  fetch : ∀ {σ : Type} (conn : Connection σ),
    (¬ EndsInJoin w → q.Fetches conn) ∧ (EndsInJoin w → q.RefusesFetch conn)
  insertMany_iff : ∀ rows, AcceptableRows t rows → ((∃ s, q.insertMany rows = .ok s) ↔ w = [])
  truncate_iff : (∃ s, q.truncate = .ok s) ↔ w = []
  update : ∀ assignments, AcceptableAssignments t assignments →
    Judged .update w (q.update assignments)
  delete : Judged .delete w q.delete

/-- **Legal calls.** On a new query over a table of the database, calls with acceptable arguments
succeed exactly if they are the first ones of a word of the grammar, and so do the uses of the query
that they lead to: it can be rendered, counted and fetched unless the last call is a join; rows can
be inserted and truncated if there was no call; and rows can be updated and deleted if there is at
most a filter, which over joins is not supported and otherwise a misuse. -/
theorem run_succeeds_iff_legal {d : Dialect} {t : Table} (hreal : t.origin.isSubquery = false)
    (hsteps : AllAcceptable [t] steps) :
    ((∃ q, (ofTable d t).run steps = .ok q) ↔ Legal (steps.map Step.verb)) ∧
    ∀ q, (ofTable d t).run steps = .ok q → q.UsableAfter (steps.map Step.verb) t := by
  have hstart := invariant_ofTable d t
  refine ⟨?_, fun q hrun => ?_⟩
  · rw [← Phase.exists_follow_iff_legal]
    exact ⟨fun ⟨q, hq⟩ => ⟨_, follow_of_run hq⟩, fun ⟨p, hp⟩ => exists_run hstart hsteps hp⟩
  · have hfollow : Phase.start.follow (steps.map Step.verb) = some q.phase := follow_of_run hrun
    have hdescribes := Phase.describes_of_follow hfollow
    have hfinite := (finiteConditions_ofTable d t).run hstart hsteps hrun
    obtain ⟨-, rfl⟩ : q.dialect = d ∧ q.primary = t := frame_of_run hrun
    have hjoins : q.joins = [] ↔ .join ∉ steps.map Step.verb := by
      rw [joins_eq_nil_iff_of_run hrun]
      simp [ofTable]
    have hjoining : q.stage = .joining ↔ EndsInJoin (steps.map Step.verb) := hdescribes.joining_iff
    have hrooted : q.stage = .rooted ↔ steps.map Step.verb = [] := hdescribes.rooted_iff
    exact
      { render_iff := by rw [exists_render_iff hfinite, ne_eq, hjoining]
        renderCount_iff := by rw [exists_renderCount_iff hfinite, ne_eq, hjoining]
        fetch := fun conn => by
          refine ⟨fun h => ?_, fun h => refusesFetch_of_joining (hjoining.mpr h) conn⟩
          obtain ⟨rendered, hrendered⟩ := (exists_render_iff hfinite).mpr (mt hjoining.mp h)
          exact fetches_of_render hrendered conn
        insertMany_iff := fun rows hrows => by rw [exists_insertMany_iff hreal hrows, hrooted]
        truncate_iff := by rw [exists_truncate_iff hreal, hrooted]
        update := fun assignments hassignments =>
          judged_update hfollow hjoins hreal hfinite hassignments
        delete := judged_delete hfollow hjoins hreal hfinite }

/-- A join with its condition, a filter and an order of two terms. -/
theorem run_succeeds_iff_legal_joined :
    let x : Column := ⟨.path ["a"], "a", { name := "x", type := .number }⟩
    let y : Column := ⟨.path ["b"], "b", { name := "y", type := .number }⟩
    let steps : List Step :=
      [.join .left (oneColumn "b" "y"), .joinOn (.comparison (.column x) "=" (.column y)),
        .restrict (.pattern [.field "x" (.literal (.integer 1))]), .orderBy ⟨.column x, none⟩,
        .thenBy ⟨.column y, none⟩]
    AllAcceptable [oneColumn "a" "x"] steps ∧ Legal (steps.map Step.verb) ∧
      ∃ q, (ofTable .sqlite (oneColumn "a" "x")).run steps = .ok q ∧ ∃ r, q.render = .ok r := by
  intro x y steps
  have hx : x.InScope [oneColumn "a" "x", oneColumn "b" "y"] :=
    ⟨oneColumn "a" "x", by simp, rfl, by simp [oneColumn, x]⟩
  have hy : y.InScope [oneColumn "a" "x", oneColumn "b" "y"] :=
    ⟨oneColumn "b" "y", by simp, rfl, by simp [oneColumn, y]⟩
  have hsteps : AllAcceptable [oneColumn "a" "x"] steps :=
    ⟨⟨by decide, List.cons_ne_nil _ _⟩, ⟨⟨_, rfl⟩, trivial, trivial⟩, ⟨⟨_, rfl⟩, trivial, trivial⟩,
      fun c hc => OrderKey.column.inj hc ▸ hx, fun c hc => OrderKey.column.inj hc ▸ hy, trivial⟩
  obtain ⟨hlegal, huses⟩ := run_succeeds_iff_legal (d := .sqlite) rfl hsteps
  obtain ⟨q, hq⟩ : ∃ q, (ofTable .sqlite (oneColumn "a" "x")).run steps = .ok q := ⟨_, rfl⟩
  refine ⟨hsteps, hlegal.mp ⟨q, hq⟩, q, hq, (huses q hq).render_iff.mpr ?_⟩
  simp [EndsInJoin, steps, Step.verb]

end Discography.Query
