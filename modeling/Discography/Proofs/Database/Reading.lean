import Discography.Execution.Fetch
import Discography.Host.Unavailable
import Discography.Proofs.Database.Direct
import Discography.Proofs.Database.Order
import Discography.Proofs.Database.ReadBack

/-!
# Reading from contents that do not change

As long as no one writes, the host of a database stays in states that answer alike. What a session
reads in such states depends neither on the state nor on what was read before, so it is enough to
know for each query that it yields the expected result and stays in these states.

## Main definitions

* `Session.Yields`: in certain states of the host, the session returns an expected result
* `Connection.Serves`: the host answers counts and selections from the rows of a table
* `Collation.host`: a host that does

## Main results

* `Session.Yields.bind`, `Session.yields_mapM`: sessions one after the other
* `Connection.Serves.yields_count`: all rows of a table are counted
* `Connection.Serves.yields_fetchAs`: sorted rows are decoded to the items that they are made of
* `Collation.serves_host`: the host answers from the rows of its table
-/

namespace Discography

variable {σ ε δ α β : Type} {I : σ → Prop}

namespace Session

/-- Wherever its host is in a state of the given kind, the session returns a value with the given
property, and leaves the host in a state of this kind. -/
def Yields (I : σ → Prop) (s : Session σ ε α) (P : α → Prop) : Prop :=
  ∀ w : World σ, I w.host → ∃ (a : α) (w' : World σ), s.run.run w = (.ok a, w') ∧ I w'.host ∧ P a

variable {s : Session σ ε α} {P Q : α → Prop}

theorem yields_pure {a : α} (hP : P a) : (pure a : Session σ ε α).Yields I P :=
  fun w hw => ⟨a, w, rfl, hw, hP⟩

theorem yields_ofExcept {r : Except ε α} {a : α} (hr : r = .ok a) (hP : P a) :
    (ofExcept r : Session σ ε α).Yields I P := by
  rw [hr]
  exact yields_pure hP

theorem Yields.mono (hs : s.Yields I P) (h : ∀ a, P a → Q a) : s.Yields I Q := by
  intro w hw
  obtain ⟨a, w', hrun, hw', hP⟩ := hs w hw
  exact ⟨a, w', hrun, hw', h a hP⟩

theorem Yields.bind {f : α → Session σ ε β} {Q : β → Prop} (hs : s.Yields I P)
    (hf : ∀ a, P a → (f a).Yields I Q) : (s >>= f).Yields I Q := by
  intro w hw
  obtain ⟨a, w', hrun, hw', hP⟩ := hs w hw
  obtain ⟨b, w'', hrun', hw'', hQ⟩ := hf a hP w' hw'
  exact ⟨b, w'', by rw [run_bind, hrun]; exact hrun', hw'', hQ⟩

theorem yields_report {e : Log.Event} : (report e : Session σ ε Unit).Yields I fun _ => True :=
  fun w hw => ⟨(), { w with log := w.log.emit e }, rfl, hw, trivial⟩

/-- Nothing that is logged matters. -/
theorem Yields.report_bind (hs : s.Yields I P) (e : Log.Event) :
    (do report e; s : Session σ ε α).Yields I P :=
  yields_report.bind fun _ _ => hs

theorem yields_reportAll (events : List Log.Event) :
    (reportAll events : Session σ ε Unit).Yields I fun _ => True := by
  induction events with
  | nil => exact yields_pure trivial
  | cons e events ih => exact ih.report_bind e

theorem Yields.mapError {f : ε → δ} (hs : s.Yields I P) :
    (s.mapError f).Yields I P := by
  intro w hw
  obtain ⟨a, w', hrun, hw', hP⟩ := hs w hw
  refine ⟨a, w', ?_, hw', hP⟩
  rw [Session.mapError, run_bind, run_attempt, hrun]
  rfl

/-- One session for every item of a list. -/
theorem yields_mapM {f : α → Session σ ε β} {R : α → β → Prop} {items : List α}
    (hf : ∀ a ∈ items, (f a).Yields I (R a)) :
    (items.mapM f).Yields I fun results => List.Forall₂ R items results := by
  induction items with
  | nil => exact yields_pure .nil
  | cons a items ih =>
    obtain ⟨ha, hitems⟩ := List.forall_mem_cons.mp hf
    rw [List.mapM_cons]
    exact ha.bind fun b hb => (ih hitems).bind fun rest hrest => yields_pure (.cons hb hrest)

end Session

namespace Connection

/-- A query whose answer is known. -/
theorem yields_perform (conn : Connection σ) {text : String} {P : List Row → Prop}
    (hanswer : ∀ s, I s → I (conn.host.answer ⟨conn.inTransaction, .query text⟩ s).2 ∧
      ∃ reply, (conn.host.answer ⟨conn.inTransaction, .query text⟩ s).1 = .ok reply ∧ P reply) :
    (conn.perform (.query text)).Yields I P := by
  refine Session.Yields.mapError fun w hw => ?_
  obtain ⟨hstays, reply, hreply, hP⟩ := hanswer w.host hw
  have hafter : (conn.afterAnswer (.query text) (.ok reply)).Yields I P :=
    (Session.yields_reportAll _).bind fun _ _ => Session.yields_pure hP
  rw [conn.run_ask, hreply]
  exact hafter { w with host := _ } hstays

/-- In states of the given kind, the host counts and selects rows of a table whose contents are the
given rows, and stays in such states. -/
structure Serves (conn : Connection σ) (d : Dialect) (c : Collation) (target : List Token)
    (rows : List Tuple) (I : σ → Prop) : Prop where
  stays : ∀ s text, I s → I (conn.host.answer ⟨conn.inTransaction, .query text⟩ s).2
  /-- A count without a condition is the number of all rows. -/
  counts : ∀ s text scope, I s →
    RowStatement.read d text = some ⟨.count, target, scope, none⟩ → ∃ n : Int64,
      (conn.host.answer ⟨conn.inTransaction, .query text⟩ s).1 = .ok [[.integer n]] ∧
        n.toInt = rows.length
  selects : ∀ s text (q : Selection), I s → Selection.read d text = some q → q.target = target →
    ∃ reply, (conn.host.answer ⟨conn.inTransaction, .query text⟩ s).1 = .ok reply ∧
      q.Returns c rows reply

namespace Serves

variable {conn : Connection σ} {d : Dialect} {c : Collation} {target : List Token}
  {rows : List Tuple} {text : String}

theorem yields_counted (h : conn.Serves d c target rows I) {scope : Option Token}
    (hread : RowStatement.read d text = some ⟨.count, target, scope, none⟩) :
    (conn.perform (.query text)).Yields I fun reply => ∃ n : Int64,
      reply = [[.integer n]] ∧ n.toInt = rows.length := by
  refine conn.yields_perform fun s hs => ⟨h.stays s text hs, ?_⟩
  obtain ⟨n, hreply, hn⟩ := h.counts s text scope hs hread
  exact ⟨_, hreply, n, rfl, hn⟩

theorem yields_selected (h : conn.Serves d c target rows I) {q : Selection}
    (hread : Selection.read d text = some q) (htarget : q.target = target) :
    (conn.perform (.query text)).Yields I (q.Returns c rows) :=
  conn.yields_perform fun s hs => ⟨h.stays s text hs, h.selects s text q hs hread htarget⟩

end Serves

end Connection

/-! ### Counts -/

theorem Query.countOf_integer {n : Int64} {size : Nat} (hn : n.toInt = size) :
    ∃ k : UInt64, countOf [[.integer n]] = .ok k ∧ k.toNat = size := by
  have hnonneg : (0 : Int) ≤ n.toInt := by omega
  refine ⟨n.toUInt64, if_pos hnonneg, ?_⟩
  rw [Int64.toNat_toUInt64_of_le (Int64.le_iff_toInt_le.2 hnonneg), Int64.toNatClampNeg, hn]
  rfl

variable {conn : Connection σ} {c : Collation} {rows : List Tuple} {q : Query}
  {segments : List String}

/-- All rows of a table are counted. -/
theorem Connection.Serves.yields_count
    (h : conn.Serves q.dialect c (Token.path segments) rows I) (hd : q.dialect.Lexical)
    (hrows : q.dialect.PlainRows) (horigin : q.primary.origin = .path segments)
    (hjoins : q.joins = []) (hfilter : q.filter = none) {sql : Sql}
    (hsql : q.renderCount = .ok sql) :
    (q.count conn).Yields I fun n => n.toNat = rows.length := by
  have hread := Query.read_count hd hrows horigin hjoins (Query.renderCount_eq_ok.1 hsql).2
  rw [hfilter] at hread
  rw [Query.count, hsql, Session.ofExcept_ok_bind]
  refine Session.Yields.report_bind ((h.yields_counted hread).bind ?_) _
  rintro _ ⟨n, rfl, hn⟩
  obtain ⟨k, hk, hsize⟩ := Query.countOf_integer hn
  exact Session.yields_ofExcept hk hsize

/-! ### Selections -/

section selections

variable {t : Table} [FromJson α] {row : α → Assignments} {items sorted : List α}
  {order : List (Column × Option Direction)}

/-- The rows of a window are decoded to the items whose rows they are. -/
theorem Table.Keeps.mapRows_map (h : t.Keeps row) (hq : q.effectiveProjection = .table t)
    (items : List α) :
    q.mapper.mapRows (items.map fun a => (row a).cells) =
      .ok (items.map fun a => .object (t.fields (row a).cells)) := by
  refine Outcome.mapM_eq_ok.2 ?_
  rw [List.forall₂_map_left_iff, List.forall₂_map_right_iff, List.forall₂_same]
  exact fun a _ => Query.mapRow_table hq (h.length_cells a)

theorem Table.Keeps.mapM_decode (h : t.Keeps row) (items : List α) :
    (items.map fun a => Record.object (t.fields (row a).cells)).mapM Record.decode =
      .ok items := by
  refine Outcome.mapM_eq_ok.2 (List.forall₂_map_left_iff.2 (List.forall₂_same.2 fun a _ => ?_))
  exact h.decode a

/-- A selection from a table that keeps items, sorted by keys that tell them apart, yields the part
of the sorted items that it asks for. -/
theorem Connection.Serves.yields_fetchAs (hkeeps : t.Keeps row)
    (h : conn.Serves q.dialect c (Token.path segments) (items.map fun a => (row a).kept) I)
    (hq : q.Selects segments order) (hd : q.dialect.Lexical)
    (hprojection : q.effectiveProjection = .table t) {rendered : Rendered}
    (hrendered : q.render = .ok rendered)
    (hunique : ∀ reply, c.IsSorted (q.selection segments order).keys
      (items.map fun a => (row a).kept) reply → reply = sorted.map fun a => (row a).kept) :
    (q.fetchAs α conn).Yields I fun fetched =>
      fetched = (q.selection segments order).window sorted := by
  obtain ⟨-, hsql, hmapper⟩ := Query.render_eq_ok.1 hrendered
  have hread := hq.read_select hd hsql
  have hcolumns : ∀ a, (q.selection segments order).columns.map (row a).kept = (row a).cells := by
    intro a
    rw [Query.selection, hprojection, Projection.map_name_leaves_table, List.map_map]
    exact hkeeps.map_kept a
  let shown := (q.selection segments order).window sorted
  have hcells : ∀ reply, (q.selection segments order).Returns c
      (items.map fun a => (row a).kept) reply → reply = shown.map fun a => (row a).cells := by
    rintro _ ⟨rows, hrows, rfl⟩
    rw [hunique rows hrows, Selection.window_map, List.map_map]
    exact List.map_congr_left fun a _ => hcolumns a
  have hfetch : (q.fetch conn).Yields I fun records =>
      records = shown.map fun a => .object (t.fields (row a).cells) := by
    rw [Query.fetch, hrendered, Session.ofExcept_ok_bind]
    refine Session.Yields.report_bind ((h.yields_selected hread rfl).bind fun reply hreply => ?_) _
    have hmapped : rendered.mapper.mapRows reply =
        .ok (shown.map fun a => .object (t.fields (row a).cells)) := by
      rw [hmapper, hcells reply hreply]
      exact hkeeps.mapRows_map hprojection shown
    exact Session.Yields.report_bind (Session.yields_ofExcept (P := (· = _)) hmapped rfl) _
  refine hfetch.bind ?_
  rintro _ rfl
  exact Session.yields_ofExcept (hkeeps.mapM_decode shown) rfl

end selections

/-! ### A host that serves -/

theorem RowStatement.ofFront_eq_count {ts table : List Nested}
    (h : ofFront ts = some (.count, table)) :
    ts = .token (.keyword "SELECT") :: .token (.keyword "COUNT") ::
      .parens [.token (.punctuation "*")] :: .token (.keyword "FROM") :: table := by
  unfold ofFront at h
  split at h
  · cases h
    rfl
  · cases h
  · obtain ⟨assignments, -, hupdate⟩ := Option.map_eq_some_iff.mp h
    cases hupdate
  · cases h

/-- A `SELECT` list that is read is no count. -/
theorem Selection.ofClauses_count {body : List Nested} {rest : List Clause} :
    ofClauses (⟨"SELECT", [.token (.keyword "COUNT"), .parens body]⟩ :: rest) = none := by
  unfold ofClauses
  split
  · rename_i h
    obtain ⟨hcolumns, -⟩ := List.cons.inj h
    cases hcolumns
    simp only [Option.bind_eq_bind, Option.bind_eq_none_iff]
    intro _ _ columns hcolumns
    cases hcolumns
  · rfl

/-- A count is no selection, since it names no columns. -/
theorem Selection.read_eq_none_of_count {d : Dialect} {text : String} {target : List Token}
    {scope : Option Token} {condition : Option Formula}
    (h : RowStatement.read d text = some ⟨.count, target, scope, condition⟩) :
    Selection.read d text = none := by
  rw [RowStatement.read, Option.bind_eq_some_iff] at h
  obtain ⟨ts, hts, h⟩ := h
  rw [RowStatement.ofNested, Option.bind_eq_bind, Option.bind_eq_some_iff] at h
  obtain ⟨⟨treatment, table⟩, hfront, h⟩ := h
  simp only [Option.bind_eq_bind, Option.bind_eq_some_iff, Option.pure_def, Option.some.injEq,
    RowStatement.mk.injEq] at h
  obtain ⟨-, -, -, -, rfl, -⟩ := h
  -- the text begins with the trees of the count, of which `FROM` begins the second clause
  have hcount := RowStatement.ofFront_eq_count hfront
  have happend := List.takeWhile_append_dropWhile (p := fun t : Nested => !t.isWhere) (l := ts)
  rw [hcount] at happend
  rw [Selection.read, Nested.ofText, hts, Option.bind_some, ← happend]
  exact (if_pos rfl).trans Selection.ofClauses_count

/-- The rows that a selection returns if rows that its keys do not tell apart keep their order. -/
def Selection.evaluate (q : Selection) (c : Collation) [DecidableRel c.le] (rows : List Tuple) :
    List Row :=
  (q.window (rows.insertionSort (c.Sorts q.keys))).map fun row => q.columns.map row

namespace Collation

variable (c : Collation) [DecidableRel c.le] (d : Dialect) (target : List Token)
  (rows : List Tuple)

/-- The answer to a text about the rows of a table. -/
def answer (text : String) : Except HostError (List Row) :=
  match Selection.read d text, RowStatement.read d text with
  | some q, _ =>
    if q.target = target then .ok (q.evaluate c rows) else .error (.databaseError "no such table")
  | none, some ⟨.count, counted, _, none⟩ =>
    if counted = target then .ok [[.integer (Int64.ofNat rows.length)]]
    else .error (.databaseError "no such table")
  | none, _ => .error (.databaseError "not supported")

/-- The host that answers from the rows of a table. -/
def host (ids : Identifier.Source σ Error) : Host σ where
  answer
    | ⟨_, .query text⟩, s => (c.answer d target rows text, s)
    | call, s => (.error (Host.noDatabase (Host.requestName call.request)), s)
  ids := ids

theorem serves_host (ids : Identifier.Source σ Error) (inTransaction : Bool)
    (hrows : rows.length < 2 ^ 63) :
    (⟨c.host d target rows ids, inTransaction⟩ : Connection σ).Serves d c target rows
      fun _ => True where
  stays _ _ _ := trivial
  counts s text scope _ hread := by
    refine ⟨Int64.ofNat rows.length, ?_, Int64.toInt_ofNat_of_lt hrows⟩
    change c.answer d target rows text = _
    rw [answer, Selection.read_eq_none_of_count hread, hread]
    exact if_pos rfl
  selects s text q _ hread htarget := by
    refine ⟨q.evaluate c rows, ?_, _, isSorted_insertionSort q.keys rows, rfl⟩
    change c.answer d target rows text = _
    rw [answer, hread]
    exact if_pos htarget

end Collation

end Discography
