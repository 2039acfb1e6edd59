import Discography.Host.Script
import Discography.Proofs.Catalogue.Changes
import Discography.Service.Basic

/-!
# The start of the service

A service that leaves logging alone starts with a fixed list of calls: a query that reads no table,
and a statement for each table that may be missing. The calls are made in order up to the first that
fails, and if the configuration is refused, none is made at all.

## Main definitions

* `Service.startCalls`: the calls of a start
* `Service.Started`: what a start does, and what comes of it
* `Service.Laws`: what the calls of a start tell about its result

## Main results

* `Catalogue.conforms_createSchema`: the statements for the tables run in order
* `Service.conforms_start`: what a start does
* `Service.start_stops_at_first_failure`: the laws hold, whatever the host replies
-/

namespace Discography

variable {σ ε δ α : Type}

/-! ### Other forms of errors -/

/-- The end of a session with another form of its error. -/
def Stop.map (f : ε → δ) : Stop ε → Stop δ
  | error cause => error (f cause)
  | defect cause => defect cause

/-- A session with another form of its errors makes the same calls. -/
theorem Session.Conforms.mapError {h : Host σ} {s : Session (σ × Transcript) ε α}
    {P : Transcript → Except (Stop ε) α → Prop} (hs : s.Conforms h P) (f : ε → δ) :
    (s.mapError f).Conforms h fun t r => ∃ r', P t r' ∧ r = r'.mapError (Stop.map f) := by
  refine Session.Conforms.bind (hs.attempt (Q := fun t r => ∃ r', P t r' ∧ r = settled r')
    fun t r hP => ⟨r, hP, rfl⟩) ?_ ?_
  · rintro t a ⟨r', hP, ha⟩
    refine Session.conforms_ofExcept ⟨r', by rwa [List.append_nil], ?_⟩
    match r', ha with
    | .ok a, ha =>
      obtain rfl := Except.ok.inj ha
      rfl
    | .error (.error cause), ha =>
      obtain rfl := Except.ok.inj ha
      rfl
  · rintro t stop ⟨r', hP, hstop⟩
    match r', hstop with
    | .error (.defect cause), hstop =>
      obtain rfl := Except.error.inj hstop
      exact ⟨_, hP, rfl⟩

namespace Catalogue

open Statement

/-- Statements that are run one by one run in order, up to the first that fails. -/
theorem conforms_forM_execute (conn : Connection σ) (texts : List String) :
    (texts.forM fun text => do
      let _ ← conn.recorded.perform (.execute text) :
        Session (σ × Transcript) Error Unit).Conforms conn.host fun t r => ∃ q,
      Ran conn.inTransaction texts t q ∧
        r = (q.map fun _ => ()).mapError fun failure => .error (.host failure) := by
  induction texts with
  | nil => exact Session.conforms_pure ⟨.ok [], .nil, rfl⟩
  | cons text texts ih =>
    rw [List.forM, bind_assoc]
    refine conn.conforms_perform_bind (fun outcome => ?_) fun failure => ?_
    -- the other texts run only behind an outcome of the first
    · refine ih.mono ?_
      rintro t r ⟨q, hran, rfl⟩
      refine ⟨_, hran.cons text outcome, ?_⟩
      cases q <;> rfl
    · exact ⟨_, .failed text texts failure, rfl⟩

/-- So do the statements for the tables. -/
theorem conforms_createSchema (c : Catalogue σ) :
    c.recorded.createSchema.Conforms c.conn.host fun t r => ∃ q,
      Ran c.conn.inTransaction (schema c.dialect) t q ∧
        r = (q.map fun _ => ()).mapError fun failure => .error (.host failure) := by
  refine (conforms_forM_execute c.conn (schema c.dialect)).bind ?_ ?_
  · rintro t u ⟨q, hran, hr⟩
    refine Session.conforms_report ⟨q, ?_, hr⟩
    rwa [List.append_nil]
  · rintro t stop ⟨q, hran, hr⟩
    refine ⟨q, hran, ?_⟩
    cases q with
    | ok outcomes => cases hr
    | error failure => exact hr

end Catalogue

namespace Service

open Statement

variable {c : Config} {host : Host σ}

/-- The query that a start begins with. -/
def probeCall : Call := ⟨false, .query Connection.probe⟩

/-- The statements for the tables that a start creates. -/
def startTexts (c : Config) : List String :=
  if c.createSchema then Catalogue.schema c.flavor.dialect else []

/-- The calls of a start. -/
def startCalls (c : Config) : List Call :=
  probeCall :: (startTexts c).map fun text => ⟨false, .execute text⟩

/-- The service that a start results in. -/
def ofHost (c : Config) (host : Host σ) : Service σ := ⟨c, ⟨⟨host, false⟩, c.flavor.dialect⟩⟩

/-- What comes of a start that reached the tables. -/
def settledStart (service : Service α) :
    Except HostError (List Outcome) → Except (Stop ServiceError) (Service α)
  | .ok _ => .ok service
  | .error failure => .error (.error (.library (.host failure)))

/-- What a start does, and what comes of it. -/
inductive Started (c : Config) (service : Service α) :
    Transcript → Except (Stop ServiceError) (Service α) → Prop
  | refused {cause : ConfigError} : c.validate = .error cause →
    Started c service [] (.error (.error (.start (.config cause))))
  | unreachable (failure : HostError) : c.validate = .ok () →
    Started c service [⟨probeCall, .error failure⟩] (.error (.error (.unreachable failure)))
  | reached (rows : List Row) {t : Transcript} {q : Except HostError (List Outcome)} :
    c.validate = .ok () → Ran false (startTexts c) t q →
    Started c service (⟨probeCall, .ok rows⟩ :: t) (settledStart service q)

/-- A database without a check of its own is asked the query that reads no table. -/
theorem conforms_checkHealth (conn : Connection σ) (hhealth : conn.host.health = .probe) :
    conn.recorded.checkHealth.Conforms conn.host fun t r =>
      ∃ reply : Call.Reply ⟨conn.inTransaction, .query Connection.probe⟩,
        t = [⟨⟨conn.inTransaction, .query Connection.probe⟩, reply⟩] ∧
          r = (reply.map fun _ => ()).mapError .error := by
  have hprobe : conn.recorded.checkHealth =
      (do let _ ← conn.recorded.ask (.query Connection.probe)) := by
    have hrecorded : conn.recorded.host.health = .probe :=
      congrArg (HealthCheck.beside Transcript) hhealth
    rw [Connection.checkHealth, hrecorded]
  rw [hprobe]
  refine (conn.conforms_ask (.query Connection.probe)).bind ?_ ?_
  · rintro t rows ⟨reply, rfl, hr⟩
    refine Session.conforms_pure ⟨reply, rfl, ?_⟩
    cases reply with
    | ok _ => rfl
    | error failure => cases hr
  · rintro t stop ⟨reply, rfl, hr⟩
    refine ⟨reply, rfl, ?_⟩
    cases reply with
    | ok _ => cases hr
    | error failure =>
      obtain rfl := Except.error.inj hr
      rfl

/-- The service is there once its tables are. -/
theorem conforms_createTables (catalogue : Catalogue σ) (e : Log.Event) (service : Service α) :
    (do
      catalogue.recorded.createSchema.mapError ServiceError.library
      Session.report e
      return service : Session (σ × Transcript) ServiceError (Service α)).Conforms
      catalogue.conn.host fun t r => ∃ q,
        Ran catalogue.conn.inTransaction (Catalogue.schema catalogue.dialect) t q ∧
          r = settledStart service q := by
  have htables := (Catalogue.conforms_createSchema catalogue).mapError ServiceError.library
  refine htables.bind ?_ ?_
  · rintro t u ⟨_, ⟨q, hran, rfl⟩, hr⟩
    cases q with
    | error failure => cases hr
    | ok outcomes =>
      refine (Session.conforms_pure ⟨.ok outcomes, ?_, rfl⟩).report_bind
      rwa [List.append_nil]
  · rintro t stop ⟨_, ⟨q, hran, rfl⟩, hr⟩
    cases q with
    | ok outcomes => cases hr
    | error failure =>
      obtain rfl := Except.error.inj hr
      exact ⟨.error failure, hran, rfl⟩

/-- Once the configuration was accepted, a start asks the database. -/
theorem conforms_assemble (hvalid : c.validate = .ok ()) (hhealth : host.health = .probe) :
    (assemble c host.recorded).Conforms host (Started c (ofHost c host.recorded)) := by
  have hhealthy := (conforms_checkHealth ⟨host, false⟩ hhealth).mapError ServiceError.unreachable
  refine hhealthy.bind ?_ ?_
  · rintro t u ⟨_, ⟨reply, rfl, rfl⟩, hr⟩
    cases reply with
    | error failure => cases hr
    | ok rows =>
      dsimp only
      by_cases hcreate : c.createSchema
      · have htexts : startTexts c = Catalogue.schema c.flavor.dialect := if_pos hcreate
        rw [if_pos hcreate]
        refine (conforms_createTables ⟨⟨host, false⟩, c.flavor.dialect⟩ _ _).mono ?_
        rintro t r ⟨q, hran, rfl⟩
        exact .reached rows hvalid (htexts ▸ hran)
      -- without tables the answer of the database is all that a start waits for
      · have htexts : startTexts c = [] := if_neg hcreate
        have hnone : Ran false (startTexts c) [] (.ok []) := htexts ▸ .nil
        rw [if_neg hcreate]
        exact Session.conforms_pure (.reached rows hvalid hnone)
  · rintro t stop ⟨_, ⟨reply, rfl, rfl⟩, hr⟩
    cases reply with
    | ok rows => cases hr
    | error failure =>
      obtain rfl := Except.error.inj hr
      exact .unreachable failure hvalid

/-- The configuration is checked before anything else. -/
theorem conforms_start (hlogging : c.logging = none) (hhealth : host.health = .probe) :
    (start c host.recorded).Conforms host (Started c (ofHost c host.recorded)) := by
  rw [start, checkConfig, startLogging, hlogging]
  cases hvalidate : c.validate with
  | error cause => exact Session.conforms_fail (.refused hvalidate)
  | ok u => exact (conforms_assemble hvalidate hhealth).report_bind

/-! ### What the calls tell -/

/-- What the calls of a start with the configuration `c` tell about its result. -/
structure Laws (c : Config) (service : Service α) (t : Transcript)
    (r : Except (Stop ServiceError) (Service α)) : Prop where
  inOrder : t.map (·.call) <+: startCalls c
  /-- Nothing is called behind a failure. -/
  untilFailure : ∀ x ∈ t.dropLast, x.succeeded
  /-- A configuration that is refused is the only reason to make no call. -/
  eq_nil_iff : t = [] ↔ ∃ cause, c.validate = .error cause
  refused : ∀ cause, c.validate = .error cause → r = .error (.error (.start (.config cause)))
  ok_iff : (∃ s, r = .ok s) ↔
    c.validate = .ok () ∧ t.map (·.call) = startCalls c ∧ ∀ x ∈ t, x.succeeded
  ok : ∀ s, r = .ok s → s = service
  unreachable : ∀ failure, ⟨probeCall, .error failure⟩ ∈ t →
    r = .error (.error (.unreachable failure))
  failed : ∀ text failure, ⟨⟨false, .execute text⟩, .error failure⟩ ∈ t →
    r = .error (.error (.library (.host failure)))
  /-- Unless tables are to be created, nothing is executed. -/
  executed : c.createSchema = false → t.executed = []

section Ran

variable {inTransaction : Bool} {texts : List String} {t : Transcript}
  {q : Except HostError (List Outcome)}

theorem not_mem_probe_of_ran (h : Ran inTransaction texts t q) (reply : Call.Reply probeCall) :
    ⟨probeCall, reply⟩ ∉ t := by
  intro hmem
  obtain ⟨-, text, hrequest⟩ := h.calls _ hmem
  cases hrequest

/-- Where no table is to be created, no text runs. -/
theorem eq_nil_of_ran_startTexts (h : Ran inTransaction (startTexts c) t q)
    (hcreate : c.createSchema = false) : t = [] := by
  have hnone : startTexts c = [] := by
    rw [startTexts, hcreate]
    rfl
  rw [hnone] at h
  cases h
  rfl

/-- The laws where the database answers the query. -/
theorem Laws.of_ran {service : Service α} (hvalid : c.validate = .ok ()) (rows : List Row)
    (h : Ran false (startTexts c) t q) :
    Laws c service (⟨probeCall, .ok rows⟩ :: t) (settledStart service q) where
  inOrder := (List.prefix_cons_inj _).mpr h.map_call_prefix
  untilFailure := by
    cases t with
    | nil => exact nofun
    | cons y t =>
      rw [List.dropLast_cons_cons]
      exact List.forall_mem_cons.mpr ⟨rfl, h.succeeded_of_mem_dropLast⟩
  eq_nil_iff := by simp [hvalid]
  refused := by simp [hvalid]
  ok_iff := by
    cases q with
    | ok outcomes =>
      obtain ⟨hcalls, hall⟩ := h.succeeded_of_ok
      exact iff_of_true ⟨service, rfl⟩
        ⟨hvalid, congrArg (_ :: ·) hcalls, List.forall_mem_cons.mpr ⟨rfl, hall⟩⟩
    | error failure =>
      refine iff_of_false (by rintro ⟨_, ⟨⟩⟩) ?_
      rintro ⟨-, -, hall⟩
      obtain ⟨⟨call, reply⟩, hx, hfailure⟩ := (h.failure_iff failure).mpr rfl
      have hsucceeded := hall _ (List.mem_cons_of_mem _ hx)
      cases reply with
      | ok a => cases hfailure
      | error other => cases hsucceeded
  ok := by
    intro s hs
    cases q with
    | ok outcomes => exact (Except.ok.inj hs).symm
    | error failure => cases hs
  unreachable := by
    intro failure hmem
    obtain heq | hmem := List.mem_cons.mp hmem
    · cases heq
    · exact absurd hmem (not_mem_probe_of_ran h _)
  failed := by
    intro text failure hmem
    obtain heq | hmem := List.mem_cons.mp hmem
    · cases heq
    · cases q with
      | ok outcomes => cases h.succeeded_of_ok.2 _ hmem
      | error other =>
        obtain rfl := (h.failure_iff failure).mp ⟨_, hmem, rfl⟩
        rfl
  executed := by
    intro hcreate
    obtain rfl := eq_nil_of_ran_startTexts h hcreate
    rfl

end Ran

theorem Started.laws {service : Service α} {t : Transcript}
    {r : Except (Stop ServiceError) (Service α)} (h : Started c service t r) :
    Laws c service t r := by
  cases h with
  | @refused cause hrefused =>
    exact {
      inOrder := List.nil_prefix
      untilFailure := fun _ hmem => by cases hmem
      eq_nil_iff := iff_of_true rfl ⟨cause, hrefused⟩
      refused := fun other hother => by
        obtain rfl := Except.error.inj (hrefused.symm.trans hother)
        rfl
      ok_iff := by simp [hrefused]
      ok := fun _ hok => by cases hok
      unreachable := fun _ hmem => by cases hmem
      failed := fun _ _ hmem => by cases hmem
      executed := fun _ => rfl }
  | unreachable failure hvalid =>
    exact {
      inOrder := ⟨_, rfl⟩
      untilFailure := fun _ hmem => by cases hmem
      eq_nil_iff := by simp [hvalid]
      refused := by simp [hvalid]
      ok_iff := by simp [Exchange.succeeded, Except.toBool]
      ok := fun _ hok => by cases hok
      unreachable := fun other hmem => by
        obtain ⟨⟩ := List.mem_singleton.mp hmem
        rfl
      failed := fun _ _ hmem => by cases List.mem_singleton.mp hmem
      executed := fun _ => rfl }
  | reached rows hvalid hran => exact .of_ran hvalid rows hran

/-- **A start stops at the first failure.** Whatever the host replies, the calls of a start are a
prefix of the query that reads no table and the statements for the tables of the dialect, in order,
and the result tells how far it got: a configuration that is refused makes no call, a query that
fails means that the database is unreachable, and a statement that fails is an error of the
library. -/
theorem start_stops_at_first_failure (c : Config) (host : Host σ) (hlogging : c.logging = none)
    (hhealth : host.health = .probe) (w : World (σ × Transcript)) :
    let ended := (start c host.recorded).run.run w
    ∃ t, ended.2.host.2 = w.host.2 ++ t ∧ host.Gives w.host.1 t ended.2.host.1 ∧
      Laws c (ofHost c host.recorded) t ended.1 := by
  intro ended
  obtain ⟨t, ht, hgives, hstarted⟩ := conforms_start hlogging hhealth w
  exact ⟨t, ht, hgives, hstarted.laws⟩

/-- The second table cannot be created: two statements run, and the other tables are left alone. -/
theorem start_stops_at_first_failure_second_table :
    let c : Config := ⟨.inMemory, 0, 1, 30, none, .mysql, false, true, none⟩
    let script : Script := { execute := [.ok {}, .error (.databaseError "disk full")] }
    let ended := (start c Host.scripted.recorded).run.run { host := (script, []) }
    c.logging = none ∧ Host.scripted.health = .probe ∧
      (∃ t, ended.2.host.2 = t ∧ Laws c (ofHost c Host.scripted.recorded) t ended.1) ∧
      ended.2.host.2.map (·.call) = (startCalls c).take 3 ∧ (startCalls c).length = 6 ∧
      ended.1 = .error (.error (.library (.host (.databaseError "disk full")))) := by
  intro c script ended
  obtain ⟨t, ht, -, hlaws⟩ :=
    start_stops_at_first_failure c Host.scripted rfl rfl { host := (script, []) }
  exact ⟨rfl, rfl, ⟨t, ht, hlaws⟩, rfl, rfl, rfl⟩

end Service

end Discography
