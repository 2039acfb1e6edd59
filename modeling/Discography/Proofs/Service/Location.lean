import Discography.Proofs.Service.Start
import Discography.Proofs.Text.FileName

/-!
# The location in the log

A service that opens its database by itself reports where the database is. As long as paths are not
to be shown in full, and also if nothing is said about logging, it reports the name of the file:
whatever stands in front of the last separator of the path, the service reports the same. The URL of
the database is another matter. It is reported before the database is opened, whether paths are to
be shown or not, and it has the whole path.

This is so whatever the engine of the database does. A database that was just created accepts every
statement, and then a start reports a fixed list of events from the opening on.

## Main definitions

* `Log.State.emitAll`: the log after several events
* `Session.Emits`: what a session reports, and how it ends
* `Service.Starts`: what a start does up to the opening of the database
* `Service.goOn`: what it does then
* `Service.laterEvents`, `Service.Reported`: what a start with a new database does to the log

## Main results

* `Session.Emits.bind`, `Session.Emits.mapError`: how sessions are composed
* `Service.starts_startBuiltIn`: what a start does
* `Service.goOn_fileName`: directories make no difference once the database was opened
* `Service.reported_startBuiltIn`: what a start with a new database does to the log
* `Config.locationText_file`: how the path of a database in a file is shown
* `Service.location_logged_without_directories`: directories are not reported with the location
-/

namespace Discography

variable {σ ε δ α β : Type}

/-! ### What sessions report -/

/-- The log after several events, one after the other. -/
def Log.State.emitAll (s : State) (events : List Event) : State :=
  events.foldl (fun s e => s.emit e) s

@[simp] theorem Log.State.emitAll_append (s : State) (events more : List Event) :
    s.emitAll (events ++ more) = (s.emitAll events).emitAll more := List.foldl_append

namespace Session

/-- Whatever the world is, the session reports the events in order, leaves the log alone otherwise,
and ends with the result. -/
def Emits (s : Session σ ε α) (events : List Log.Event) (r : Except (Stop ε) α) : Prop :=
  ∀ w : World σ, ∃ w', s.run.run w = (r, w') ∧ w'.log = w.log.emitAll events

variable {s : Session σ ε α} {events more : List Log.Event} {r : Except (Stop ε) α}

theorem emits_pure (a : α) : (pure a : Session σ ε α).Emits [] (.ok a) := fun w => ⟨w, rfl, rfl⟩

theorem emits_ofExcept (x : Except ε α) :
    (ofExcept x : Session σ ε α).Emits [] (x.mapError .error) :=
  fun w => ⟨w, run_ofExcept x w, rfl⟩

theorem emits_report (e : Log.Event) : (report e : Session σ ε Unit).Emits [e] (.ok ()) :=
  fun _ => ⟨_, rfl, rfl⟩

/-- The events of the second session follow those of the first. -/
theorem Emits.bind {a : α} {f : α → Session σ ε β} {r : Except (Stop ε) β}
    (hs : s.Emits events (.ok a)) (hf : (f a).Emits more r) :
    (s >>= f).Emits (events ++ more) r := by
  intro w
  obtain ⟨w', hrun, hlog⟩ := hs w
  obtain ⟨w'', hrun', hlog'⟩ := hf w'
  refine ⟨w'', ?_, ?_⟩
  · rw [run_bind, hrun]
    exact hrun'
  · rw [hlog', hlog, Log.State.emitAll_append]

theorem Emits.report_bind (hs : s.Emits events r) (e : Log.Event) :
    (do report e; s : Session σ ε α).Emits (e :: events) r :=
  (emits_report e).bind hs

theorem emits_reportAll (events : List Log.Event) :
    (reportAll events : Session σ ε Unit).Emits events (.ok ()) := by
  induction events with
  | nil => exact emits_pure ()
  | cons e events ih => exact ih.report_bind e

theorem emits_reportAll_ofExcept (events : List Log.Event) (x : Except ε α) :
    (do reportAll events; ofExcept x : Session σ ε α).Emits events (x.mapError .error) := by
  have hboth := (emits_reportAll events).bind (f := fun _ => ofExcept x)
    (emits_ofExcept (σ := σ) x)
  rwa [List.append_nil] at hboth

/-- Another form of its errors makes no difference to what a session does. -/
theorem run_mapError (f : ε → δ) (s : Session σ ε α) (w : World σ) :
    (s.mapError f).run.run w = ((s.run.run w).1.mapError (Stop.map f), (s.run.run w).2) := by
  have hattempt : (s.attempt : Session σ δ (Except ε α)).run.run w =
      (settled (s.run.run w).1, (s.run.run w).2) := rfl
  rw [mapError, run_bind, hattempt]
  rcases s.run.run w with ⟨(cause | defect) | a, w'⟩ <;> rfl

theorem Emits.mapError (hs : s.Emits events r) (f : ε → δ) :
    (s.mapError f).Emits events (r.mapError (Stop.map f)) := by
  intro w
  obtain ⟨w', hrun, hlog⟩ := hs w
  exact ⟨w', by rw [run_mapError, hrun], hlog⟩

/-- One session for every item of a list. -/
theorem emits_forM {f : α → Session σ ε Unit} {eventsOf : α → List Log.Event}
    (hf : ∀ a, (f a).Emits (eventsOf a) (.ok ())) (items : List α) :
    (items.forM f).Emits (items.flatMap eventsOf) (.ok ()) := by
  induction items with
  | nil => exact emits_pure ()
  | cons a items ih => exact (hf a).bind ih

end Session

/-- Logging is set up, or nothing happens. -/
theorem Session.run_installLog (logging : Log.Config) (w : World σ) :
    (∃ log, w.log.install logging = .ok log ∧
        (installLog logging).run.run w = (.ok (), { w with log })) ∨
      ∃ cause stop, w.log.install logging = .error cause ∧
        (installLog logging).run.run w = (.error stop, w) := by
  have hget : (get : Session σ Log.SetupError (World σ)).run.run w = (.ok w, w) := rfl
  rw [installLog, run_bind, hget]
  dsimp only
  split
  next log hinstall => exact .inl ⟨log, hinstall, rfl⟩
  -- a defect and an error alike leave the world as it was
  next cause hinstall => exact .inr ⟨_, _, hinstall, rfl⟩
  next cause _ hinstall => exact .inr ⟨_, _, hinstall, rfl⟩

/-! ### The opening of a database -/

namespace BuiltIn

open Session

/-- What the opening of a database does. The engine is asked once the URL was read. -/
inductive Connects (engine : Engine σ) (c : DatabaseConfig) (w : World σ) :
    Except (Stop HostError) Unit × World σ → Prop
  | refused {cause : HostError} : checkUrl c.url = .error cause →
    Connects engine c w (.error (.error cause), { w with log := w.log.emit (opening c) })
  | failed {text : String} {host : σ} : checkUrl c.url = .ok () →
    engine.connect c w.host = (.error text, host) →
    Connects engine c w (.error (.error (failure "Connection pool creation" text)),
      { w with host, log := w.log.emitAll [opening c, notOpened text] })
  | opened {connections : Nat} {host : σ} : checkUrl c.url = .ok () →
    engine.connect c w.host = (.ok connections, host) →
    Connects engine c w
      (.ok (), { w with host, log := w.log.emitAll [opening c, opened connections] })

theorem connects_connect (engine : Engine σ) (c : DatabaseConfig) (w : World σ) :
    Connects engine c w ((connect engine c).run.run w) := by
  cases hurl : checkUrl c.url with
  | error cause =>
    rw [connect, hurl]
    exact .refused hurl
  | ok _ =>
    have hrun : (connect engine c).run.run w =
        (endOpening (engine.connect c w.host).1).run.run
          { w with host := (engine.connect c w.host).2, log := w.log.emit (opening c) } := by
      rw [connect, hurl]
      rfl
    rw [hrun]
    rcases hconnect : engine.connect c w.host with ⟨text | connections, host⟩
    · exact .failed hurl hconnect
    · exact .opened hurl hconnect

end BuiltIn

/-! ### A new database -/

namespace Connection

open Session

/-- A new database answers every request but for a transaction in a transaction, and reports what it
does for it. -/
theorem emits_perform_fresh (ids : Identifier.Source σ Error) (r : Request) :
    (perform ⟨.builtIn .fresh ids, false⟩ r).Emits
      (BuiltIn.report ⟨false, r⟩ (.ok (BuiltIn.emptyAnswer r)))
      (.ok (BuiltIn.emptyAnswer r)) := by
  let conn : Connection σ := ⟨.builtIn .fresh ids, false⟩
  have hask : (conn.ask r).Emits (BuiltIn.report ⟨false, r⟩ (.ok (BuiltIn.emptyAnswer r)))
      (.ok (BuiltIn.emptyAnswer r)) := by
    intro w
    rw [conn.run_ask]
    exact emits_reportAll_ofExcept _ (.ok (BuiltIn.emptyAnswer r)) { w with host := _ }
  exact hask.mapError Error.host

theorem emits_checkHealth_fresh (ids : Identifier.Source σ Error) :
    (checkHealth ⟨.builtIn .fresh ids, false⟩).Emits (BuiltIn.healthEvents (.ok ())) (.ok ()) :=
  fun w => emits_reportAll_ofExcept (BuiltIn.healthEvents (.ok ())) (.ok ()) { w with host := _ }

end Connection

/-! ### The location -/

/-- A path is shown by its file name unless logging is set up to show paths in full. -/
theorem Config.locationText_file {c : Config} {path : String} (h : c.location = .file path) :
    c.locationText = if c.logging.all (·.redact) then Text.fileName path else path := by
  rw [Config.locationText, h]
  cases c.logging <;> rfl

namespace Service

open Session

variable {c : Config} {path : String}

/-- What a start reports about the tables that it creates. -/
def tableEvents (d : Dialect) : List Log.Event :=
  ((Catalogue.schema d).flatMap fun text => BuiltIn.report ⟨false, .execute text⟩ (.ok {})) ++
    [Catalogue.event .info "Catalogue schema ready" [("dialect", d.name)],
      event "Catalogue schema ready"]

/-- The events of a start once a new database was opened. -/
def laterEvents (c : Config) : List Log.Event :=
  [BuiltIn.opened 1, opened c] ++ BuiltIn.healthEvents (.ok ()) ++
    if c.createSchema then tableEvents c.flavor.dialect else []

/-- The URL of a database in a file has the path as it is. -/
theorem mem_fields_opening (h : c.location = .file path) :
    ("database_url", "sqlite:" ++ path) ∈ (BuiltIn.opening c.database).fields := by
  simp [BuiltIn.opening, BuiltIn.event, Config.database, h, Location.path?, DatabaseConfig.file]

/-- The event about the location has the file name in it and nothing else of the path. -/
theorem opened_fileName (h : c.location = .file path) (hredact : c.logging.all (·.redact)) :
    opened c = opened { c with location := .file (Text.fileName path) } := by
  have hshown : c.locationText =
      ({ c with location := .file (Text.fileName path) } : Config).locationText := by
    rw [Config.locationText_file h, Config.locationText_file rfl, if_pos hredact, if_pos hredact,
      Text.fileName_fileName]
  rw [opened, opened, hshown]

/-- So have all events behind the opening. -/
theorem laterEvents_fileName (h : c.location = .file path) (hredact : c.logging.all (·.redact)) :
    laterEvents c = laterEvents { c with location := .file (Text.fileName path) } := by
  rw [laterEvents, laterEvents, opened_fileName h hredact]

/-- A start once the database was opened. -/
def goOn (c : Config) (ids : Identifier.Source σ Error) (engine : BuiltIn.Engine σ) :
    Session σ ServiceError (Service σ) := do
  report (opened c)
  assemble c (.builtIn engine ids)

/-- The catalogue that a service is assembled with depends on the dialect and on whether there are
tables to be created. -/
theorem catalogue_assemble (c : Config) (host : Host σ) :
    Service.catalogue <$> assemble c host = (do
      (Connection.checkHealth ⟨host, false⟩).mapError .unreachable
      if c.createSchema then
        (Catalogue.createSchema ⟨⟨host, false⟩, c.flavor.dialect⟩).mapError .library
        report (event "Catalogue schema ready")
      return ⟨⟨host, false⟩, c.flavor.dialect⟩) := by
  rw [assemble, map_bind]
  by_cases hcreate : c.createSchema <;> simp [hcreate]

/-- Whatever the engine does from then on, the directories make no difference: the start goes on in
the same way and results in the same catalogue. -/
theorem goOn_fileName (h : c.location = .file path) (hredact : c.logging.all (·.redact))
    (ids : Identifier.Source σ Error) (engine : BuiltIn.Engine σ) :
    Service.catalogue <$> goOn c ids engine =
      Service.catalogue <$>
        goOn { c with location := .file (Text.fileName path) } ids engine := by
  rw [goOn, goOn, opened_fileName h hredact, map_bind, map_bind]
  -- the two configurations agree in the dialect and in what is to be created
  simp only [catalogue_assemble]

/-! ### Starts -/

/-- The log once logging was set up, as far as it is to be set up. -/
inductive Prepared (c : Config) (before : Log.State) : Log.State → Prop
  | kept : c.logging = none → Prepared c before before
  | installed {logging : Log.Config} {log : Log.State} :
    c.logging = some logging → before.install logging = .ok log → Prepared c before log

/-- What a start does, and what comes of it: it goes on once the database was opened. -/
inductive Starts (c : Config) (ids : Identifier.Source σ Error) (engine : BuiltIn.Engine σ)
    (w : World σ) : Except (Stop ServiceError) (Service σ) × World σ → Prop
  /-- The start is refused before anything can be reported. -/
  | refused (stop : Stop ServiceError) :
    c.validate ≠ .ok () ∨ c.flavor = .mysql ∨ (¬ ∃ log, Prepared c w.log log) →
    Starts c ids engine w (.error stop, w)
  | notOpened {log : Log.State} {stop : Stop HostError} {w' : World σ} : Prepared c w.log log →
    BuiltIn.Connects engine c.database { w with log } (.error stop, w') →
    Starts c ids engine w (.error (stop.map .host), w')
  | opened {log : Log.State} {w' : World σ} : Prepared c w.log log →
    BuiltIn.Connects engine c.database { w with log } (.ok (), w') →
    Starts c ids engine w ((goOn c ids engine).run.run w')

/-- What a start with a new database does to the log, and whether the service is there afterwards.
-/
inductive Reported (c : Config) (before : Log.State) : Log.State → Bool → Prop
  /-- The start is refused before anything can be reported. -/
  | nothing : c.validate ≠ .ok () ∨ c.flavor = .mysql ∨ (¬ ∃ log, Prepared c before log) →
    Reported c before before false
  /-- The URL of the database is refused. -/
  | notOpened {log : Log.State} : Prepared c before log →
    BuiltIn.checkUrl c.database.url ≠ .ok () →
    Reported c before (log.emit (BuiltIn.opening c.database)) false
  | started {log : Log.State} : Prepared c before log →
    BuiltIn.checkUrl c.database.url = .ok () →
    Reported c before (log.emitAll (BuiltIn.opening c.database :: laterEvents c)) true

/-- Logging is set up as the configuration says, or nothing happens. -/
theorem run_startLogging (c : Config) (w : World σ) :
    (∃ log, Prepared c w.log log ∧ (startLogging c).run.run w = (.ok (), { w with log })) ∨
      (¬ ∃ log, Prepared c w.log log) ∧ ∃ stop, (startLogging c).run.run w = (.error stop, w) := by
  cases hlogging : c.logging with
  | none => exact .inl ⟨w.log, .kept hlogging, by rw [startLogging, hlogging]; rfl⟩
  | some logging =>
    have hsession : (startLogging c : Session σ ServiceError Unit) =
        (installLog logging).mapError fun cause => .start (.logging cause) := by
      rw [startLogging, hlogging]
    rw [hsession, run_mapError]
    obtain ⟨log, hinstall, hrun⟩ | ⟨cause, stop, hinstall, hrun⟩ := run_installLog logging w
    · rw [hrun]
      exact .inl ⟨log, .installed hlogging hinstall, rfl⟩
    · rw [hrun]
      refine .inr ⟨?_, _, rfl⟩
      rintro ⟨log, hnone | ⟨hsome, hok⟩⟩
      · cases hlogging.symm.trans hnone
      · obtain rfl := Option.some.inj (hlogging.symm.trans hsome)
        cases hinstall.symm.trans hok

theorem startBuiltIn_of_validate_error (ids : Identifier.Source σ Error)
    (engine : BuiltIn.Engine σ) {cause : ConfigError} (h : c.validate = .error cause) :
    startBuiltIn c ids engine = fail (.start (.config cause)) := by
  rw [startBuiltIn, checkConfig, h]
  rfl

theorem startBuiltIn_of_validate_ok (ids : Identifier.Source σ Error) (engine : BuiltIn.Engine σ)
    (h : c.validate = .ok ()) :
    startBuiltIn c ids engine = if c.flavor = .mysql then fail .noMysql
      else (do
        startLogging c
        (BuiltIn.connect engine c.database).mapError .host
        goOn c ids engine) := by
  rw [startBuiltIn, checkConfig, h]
  rfl

/-- Nothing is done before logging is set up, and then the database is opened first. -/
theorem starts_startBuiltIn (c : Config) (ids : Identifier.Source σ Error)
    (engine : BuiltIn.Engine σ) (w : World σ) :
    Starts c ids engine w ((startBuiltIn c ids engine).run.run w) := by
  cases hvalid : c.validate with
  | error cause =>
    rw [startBuiltIn_of_validate_error ids engine hvalid]
    exact .refused _ (.inl (by rw [hvalid]; nofun))
  | ok _ =>
    rw [startBuiltIn_of_validate_ok ids engine hvalid]
    split
    next hmysql => exact .refused _ (.inr (.inl hmysql))
    rw [run_bind]
    obtain ⟨log, hlog, hrun⟩ | ⟨hnone, stop, hrun⟩ := run_startLogging c w
    · rw [hrun]
      dsimp only
      -- the opening decides whether the start goes on, and in which world
      rw [run_bind, run_mapError]
      have hconnects := BuiltIn.connects_connect engine c.database { w with log }
      generalize (BuiltIn.connect engine c.database).run.run { w with log } = connected at *
      obtain ⟨stop | _, w'⟩ := connected
      · exact .notOpened hlog hconnects
      · exact .opened hlog hconnects
    · rw [hrun]
      exact .refused stop (.inr (.inr hnone))

/-! ### Starts with a new database -/

/-- The tables are created one after the other. -/
theorem emits_createSchema (ids : Identifier.Source σ Error) (d : Dialect) :
    (Catalogue.createSchema ⟨⟨.builtIn .fresh ids, false⟩, d⟩).Emits
      (((Catalogue.schema d).flatMap fun text =>
          BuiltIn.report ⟨false, .execute text⟩ (.ok {})) ++
        [Catalogue.event .info "Catalogue schema ready" [("dialect", d.name)]]) (.ok ()) := by
  refine Emits.bind (emits_forM (fun text => ?_) (Catalogue.schema d)) (emits_report _)
  exact (Connection.emits_perform_fresh ids (.execute text)).bind (emits_pure ())

/-- The service is there, whatever was reported before. -/
theorem emits_goOn (c : Config) (ids : Identifier.Source σ Error) :
    (goOn c ids .fresh).Emits (laterEvents c).tail (.ok (ofHost c (.builtIn .fresh ids))) := by
  have hhealth := (Connection.emits_checkHealth_fresh ids).mapError ServiceError.unreachable
  rw [laterEvents, List.append_assoc]
  refine Emits.report_bind (hhealth.bind ?_) (opened c)
  dsimp only
  split
  · have htables := (emits_createSchema ids c.flavor.dialect).mapError ServiceError.library
    rw [tableEvents, ← List.singleton_append, ← List.append_assoc]
    exact htables.bind ((emits_pure _).report_bind _)
  · exact emits_pure _

/-- A new database is opened unless its URL is refused. -/
theorem reported_startBuiltIn (c : Config) (ids : Identifier.Source σ Error) (w : World σ) :
    Reported c w.log ((startBuiltIn c ids).run.run w).2.log
      ((startBuiltIn c ids).run.run w).1.toBool := by
  have hstarts := starts_startBuiltIn c ids .fresh w
  generalize (startBuiltIn c ids).run.run w = ended at hstarts
  cases hstarts with
  | refused stop hrefused => exact .nothing hrefused
  | notOpened hlog hconnects =>
    cases hconnects with
    | refused hurl => exact .notOpened hlog (by rw [hurl]; nofun)
    -- a new database is opened once it is asked
    | failed hurl hfailed => cases hfailed
  | opened hlog hconnects =>
    cases hconnects with
    | opened hurl hopened =>
      cases hopened
      obtain ⟨w', hended, hreported⟩ := emits_goOn c ids { w with log := _ }
      rw [hended, hreported, ← Log.State.emitAll_append]
      exact .started hlog hurl

/-- **The location in the log.** The file name is the longest suffix of the path without separators;
it is its own file name, and so are the paths without separators and no others. For a database in a
file, as long as paths are not to be shown in full or if nothing is said about logging, the location
is shown by the file name, without any separator. Whatever the engine does, a start reports it once
the database was opened, and from then on all is as if there were no directories in front of the
file name. With a new database, the events of a start are known. -/
theorem location_logged_without_directories (path : String) :
    (∀ name, name = Text.fileName path ↔
      Text.IsLastPart Text.pathSeparators name.toList path.toList) ∧
    Text.fileName (Text.fileName path) = Text.fileName path ∧
    (Text.fileName path = path ↔ Text.pathSeparators.Disjoint path.toList) ∧
    ∀ c : Config, c.location = .file path → c.logging.all (·.redact) →
      c.locationText = Text.fileName path ∧
      Text.pathSeparators.Disjoint c.locationText.toList ∧
      laterEvents c = laterEvents { c with location := .file (Text.fileName path) } ∧
      ∀ {σ : Type} (ids : Identifier.Source σ Error) (w : World σ),
        Reported c w.log ((startBuiltIn c ids).run.run w).2.log
          ((startBuiltIn c ids).run.run w).1.toBool ∧
        ∀ engine : BuiltIn.Engine σ,
          Starts c ids engine w ((startBuiltIn c ids engine).run.run w) ∧
          Service.catalogue <$> goOn c ids engine =
            Service.catalogue <$>
              goOn { c with location := .file (Text.fileName path) } ids engine := by
  refine ⟨fun _ => Text.eq_fileName_iff, Text.fileName_fileName path, Text.fileName_eq_self_iff,
    fun c hlocation hredact => ?_⟩
  have hshown : c.locationText = Text.fileName path := by
    rw [Config.locationText_file hlocation, if_pos hredact]
  refine ⟨hshown, ?_, laterEvents_fileName hlocation hredact, fun ids w =>
    ⟨reported_startBuiltIn c ids w, fun engine =>
      ⟨starts_startBuiltIn c ids engine w, goOn_fileName hlocation hredact ids engine⟩⟩⟩
  rw [hshown]
  exact (Text.isLastPart_fileName path).avoids

/-- Both separators in one path: what a sink for the events of the service receives is the file name
and the number of connections. -/
theorem location_logged_without_directories_mixed :
    let path := "C:\\music/jazz\\library.db"
    let logging : Log.Config := { filterText := some Log.Target.service, sink := some {} }
    let c : Config := ⟨.file path, 1, 5, 30, none, .sqlite, false, false, some logging⟩
    let ids : Identifier.Source Unit Error := ⟨fun s => (0, s), fun s => (.error (.random ""), s)⟩
    c.location = .file path ∧ c.logging.all (·.redact) ∧
      c.locationText = "library.db" ∧ Text.pathSeparators.Disjoint c.locationText.toList ∧
      laterEvents c = laterEvents { c with location := .file "library.db" } ∧
      (∀ w : World Unit, Reported c w.log ((startBuiltIn c ids).run.run w).2.log
        ((startBuiltIn c ids).run.run w).1.toBool) ∧
      ((startBuiltIn c ids).run.run { host := () }).2.log.received.map (·.fields) =
        [[("database", "library.db"), ("max_connections", "5")]] := by
  intro path logging c ids
  obtain ⟨-, -, -, hconfig⟩ := location_logged_without_directories path
  obtain ⟨hshown, havoids, hlater, hruns⟩ := hconfig c rfl rfl
  have hname : Text.fileName path = "library.db" := by decide +kernel
  rw [hname] at hshown hlater
  exact ⟨rfl, rfl, hshown, havoids, hlater, fun w => (hruns ids w).1, by decide +kernel⟩

end Service

end Discography
