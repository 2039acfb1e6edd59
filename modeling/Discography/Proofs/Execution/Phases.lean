import Discography.Execution.Fetch
import Discography.Proofs.Execution.Batch
import Discography.Proofs.Outcome

/-!
# When errors arise

A session that changes something checks its arguments first, then draws the identifiers that it
needs, and then asks the database. What is refused in one of these phases is not refused in a later
one, so an error tells how far the session has come. A session whose statements can be written has
no errors about queries at all.

## Main definitions

* `Error.FromDatabase`: errors that only a database can cause
* `Session.Asks`, `Session.Draws`, `Session.Checks`: sessions from each phase on

## Main results

* `Session.Asks.bind`, `Session.Draws.of_drawn_bind`, `Session.Checks.ofExcept_bind`: how the phases
  follow each other
* `Session.Asks.transaction`: what runs in a transaction
* `Statement.asks_execute`, `Query.asks_fetchAs`, `Query.asks_count`: statements and queries
-/

namespace Discography

variable {σ α β : Type}

/-- The database failed, or it returned something else than it was asked for. -/
def Error.FromDatabase : Error → Prop
  | .host _ | .cardinality _ _ | .decode _ | .notFound _ _ => True
  | _ => False

namespace Session

/-! ### Phases -/

/-- The database is asked: only it can cause an error. -/
def Asks (h : Host σ) (s : Session (σ × Transcript) Error α) : Prop :=
  s.Conforms h fun _ r => ∀ cause, r = .error (.error cause) → cause.FromDatabase

/-- Identifiers are drawn before the database is asked for anything. -/
def Draws (h : Host σ) (s : Session (σ × Transcript) Error α) : Prop :=
  s.Conforms h fun t r => ∀ cause, r = .error (.error cause) →
    h.ids.FailsWith cause ∧ t = [] ∨ cause.FromDatabase

/-- Arguments are checked before anything happens, then identifiers are drawn, and then the database
is asked. -/
def Checks (h : Host σ) (s : Session (σ × Transcript) Error α) : Prop :=
  ∀ w, ∃ t, (s.run.run w).2.host.2 = w.host.2 ++ t ∧
    h.Gives w.host.1 t (s.run.run w).2.host.1 ∧
    ∀ cause, (s.run.run w).1 = .error (.error cause) →
      (∃ input, cause = .invalidInput input) ∧ (s.run.run w).2 = w ∨
        h.ids.FailsWith cause ∧ t = [] ∨ cause.FromDatabase

variable {h : Host σ} {s : Session (σ × Transcript) Error α}
  {f : α → Session (σ × Transcript) Error β}

theorem Asks.draws (hs : s.Asks h) : s.Draws h :=
  hs.mono fun _ _ hcause cause hr => .inr (hcause cause hr)

theorem Draws.checks (hs : s.Draws h) : s.Checks h := by
  intro w
  obtain ⟨t, ht, hgives, hcause⟩ := hs w
  exact ⟨t, ht, hgives, fun cause hr => .inr (hcause cause hr)⟩

theorem asks_pure (a : α) : (pure a : Session (σ × Transcript) Error α).Asks h :=
  conforms_pure nofun

theorem asks_fail {cause : Error} (hcause : cause.FromDatabase) :
    (fail cause : Session (σ × Transcript) Error α).Asks h := by
  refine conforms_fail ?_
  rintro _ ⟨⟩
  exact hcause

theorem asks_ofExcept {x : Result α} (hx : ∀ cause, x = .error cause → cause.FromDatabase) :
    (ofExcept x : Session (σ × Transcript) Error α).Asks h := by
  cases x with
  | ok a => exact asks_pure a
  | error cause => exact asks_fail (hx cause rfl)

theorem asks_report (e : Log.Event) : (report e : Session (σ × Transcript) Error Unit).Asks h :=
  conforms_report nofun

/-- The database may be asked again and again. -/
theorem Asks.bind (hs : s.Asks h) (hf : ∀ a, (f a).Asks h) : (s >>= f).Asks h := by
  refine Conforms.bind hs (fun t a _ => hf a) ?_
  rintro t stop hcause cause ⟨⟩
  exact hcause cause rfl

theorem asks_perform_bind (conn : Connection σ) {r : Request}
    {f : r.Answer → Session (σ × Transcript) Error α} (hf : ∀ a, (f a).Asks conn.host) :
    (conn.recorded.perform r >>= f).Asks conn.host := by
  refine conn.conforms_perform_bind hf ?_
  rintro failure _ ⟨⟩
  trivial

theorem asks_forM {f : α → Session (σ × Transcript) Error Unit} (hf : ∀ a, (f a).Asks h)
    (items : List α) : (items.forM f).Asks h := by
  induction items with
  | nil => exact asks_pure ()
  | cons a items ih => exact (hf a).bind fun _ => ih

/-- What runs in a transaction asks the database, and so do its begin and its end. -/
theorem Asks.transaction (conn : Connection σ)
    {body : Connection (σ × Transcript) → Session (σ × Transcript) Error α}
    (hbody : (body conn.inside.recorded).Asks conn.host) :
    (conn.recorded.transaction body).Asks conn.host := by
  refine (conn.conforms_transaction hbody).mono ?_
  rintro t r (⟨failure⟩ | ⟨hended⟩) cause hr
  · obtain ⟨⟩ := hr
    trivial
  -- an error of the body is returned behind a rollback, every other one is of the end itself
  · cases hended with
    | committed => cases hr
    | notCommitted failure | notRolledBack failure =>
      obtain ⟨⟩ := hr
      trivial
    | rolledBack hcause =>
      obtain ⟨⟩ := hr
      exact hcause cause rfl
    | defect => cases hr

/-- Identifiers are drawn without a call, and with the result `a` there is a property of it. -/
theorem Draws.of_drawn_bind {P : α → Prop}
    (hs : s.Conforms h fun t r =>
      t = [] ∧ ((∃ a, r = .ok a ∧ P a) ∨
        ∃ cause, h.ids.FailsWith cause ∧ r = .error (.error cause)))
    (hf : ∀ a, P a → (f a).Draws h) : (s >>= f).Draws h := by
  refine Conforms.bind hs ?_ ?_
  · rintro t a ⟨rfl, ⟨_, ha, hP⟩ | ⟨cause, -, ha⟩⟩
    · obtain rfl := Except.ok.inj ha
      exact hf a hP
    · cases ha
  · rintro t stop ⟨rfl, ⟨a, ha, -⟩ | ⟨failure, hfails, ha⟩⟩ cause hcause
    · cases ha
    · obtain rfl := Except.error.inj ha
      obtain rfl := Stop.error.inj (Except.error.inj hcause)
      exact .inl ⟨hfails, rfl⟩

theorem draws_nextIdentifier_bind (conn : Connection σ)
    {f : Identifier → Session (σ × Transcript) Error β} (hf : ∀ id, (f id).Draws conn.host) :
    (conn.recorded.nextIdentifier >>= f).Draws conn.host := by
  refine Draws.of_drawn_bind (P := fun _ => True) (conn.conforms_nextIdentifier.mono ?_)
    fun id _ => hf id
  rintro t r ⟨rfl, ⟨id, rfl⟩ | hfails⟩
  · exact ⟨rfl, .inl ⟨id, rfl, trivial⟩⟩
  · exact ⟨rfl, .inr hfails⟩

/-- What is checked first is refused before anything happens. -/
theorem Checks.ofExcept_bind {x : Result α}
    (hx : ∀ cause, x = .error cause → ∃ input, cause = .invalidInput input)
    (hf : ∀ a, x = .ok a → (f a).Checks h) : (ofExcept x >>= f).Checks h := by
  cases x with
  | ok a => exact hf a rfl
  | error cause =>
    intro w
    refine ⟨[], (List.append_nil _).symm, .nil _, ?_⟩
    rintro _ ⟨⟩
    exact .inl ⟨hx cause rfl, rfl⟩

end Session

open Session

variable (conn : Connection σ)

/-- A statement fails with the database only. -/
theorem Statement.asks_execute (s : Statement) : (s.execute conn.recorded).Asks conn.host := by
  refine (s.conforms_execute conn).mono ?_
  rintro t r (⟨rfl, -⟩ | ⟨r, hprotocol, rfl⟩) cause hr
  · cases hr
  · cases r with
    | ok outcome => cases hr
    | error cause' =>
      obtain ⟨⟩ := hr
      obtain ⟨failure, -, rfl⟩ := hprotocol.laws.error cause rfl
      trivial

namespace Query

variable {q : Query}

theorem fromDatabase_of_mapRows {m : RowMapper} {rows : List Row} {cause : Error}
    (h : m.mapRows rows = .error cause) : cause.FromDatabase := by
  obtain ⟨row, -, hrow⟩ := Outcome.exists_of_mapM_eq_error h
  rw [RowMapper.mapRow] at hrow
  split at hrow
  · cases hrow
  · obtain rfl := Except.error.inj hrow
    trivial

theorem fromDatabase_of_decode {α : Type} [FromJson α] {records : List Record} {cause : Error}
    (h : records.mapM (Record.decode (α := α)) = .error cause) : cause.FromDatabase := by
  obtain ⟨record, -, hrecord⟩ := Outcome.exists_of_mapM_eq_error h
  rw [Record.decode] at hrecord
  cases hread : (fromJson record.json.canonical : Except Json.DecodeError α) with
  | ok a =>
    rw [hread] at hrecord
    cases hrecord
  | error failure =>
    rw [hread] at hrecord
    obtain rfl := Except.error.inj hrecord
    trivial

theorem fromDatabase_of_countOf {rows : List Row} {cause : Error}
    (h : countOf rows = .error cause) : cause.FromDatabase := by
  rw [countOf] at h
  split at h
  · split at h
    · cases h
    · obtain rfl := Except.error.inj h
      trivial
  · obtain rfl := Except.error.inj h
    trivial

/-- A query that can be written fails with the database only. -/
theorem asks_fetch {rendered : Rendered} (hq : q.render = .ok rendered) :
    (q.fetch conn.recorded).Asks conn.host := by
  rw [fetch, hq, ofExcept_ok_bind]
  refine (asks_report _).bind fun _ => asks_perform_bind conn fun rows => ?_
  exact (asks_report _).bind fun _ => asks_ofExcept fun _ => fromDatabase_of_mapRows

theorem asks_fetchAs {α : Type} [FromJson α] {rendered : Rendered}
    (hq : q.render = .ok rendered) : (q.fetchAs α conn.recorded).Asks conn.host :=
  (asks_fetch conn hq).bind fun _ => asks_ofExcept fun _ => fromDatabase_of_decode

/-- So does the count of a query. -/
theorem asks_count {sql : Sql} (hq : q.renderCount = .ok sql) :
    (q.count conn.recorded).Asks conn.host := by
  rw [count, hq, ofExcept_ok_bind]
  refine (asks_report _).bind fun _ => asks_perform_bind conn fun rows => ?_
  exact asks_ofExcept fun _ => fromDatabase_of_countOf

end Query

end Discography
