import Discography.Execution.Batch
import Discography.Execution.Fetch
import Discography.Host.Script
import Discography.Proofs.Config.Memory
import Discography.Proofs.Execution.Transcript
import Discography.Proofs.Log.Decisions

/-!
# Statements in the log

Statements have the values of callers in them, and the parts of the program that run statements
report their texts below `info`. The filter by level drops these events unless the configuration
asks for them, so that no statement that is fetched, counted or executed reaches the sink. A filter
of the configuration's own is taken as it is, whatever the configuration says about statements.

## Main definitions

* `Log.Event.TellsStatement`: the events in question
* `Log.Filter.HidesStatements`: none of them passes
* `Log.State.Adds`: what was logged in addition
* `Session.Discreet`: what a session logs

## Main results

* `Log.Filter.parse_intercalate`: directives with commas between them are read one by one
* `Log.Config.hidesStatements_levelDirectives`: the filter by level
* `Query.discreet_fetch`, `Query.discreet_count`, `Statement.discreet_runBatch`: sessions
* `Log.Config.statements_unlogged`: configurations that do not ask for statements
* `Log.Config.statement_logged_by_own_filter`: a filter that lets them pass nevertheless
-/

namespace Discography

namespace Log

/-! ### Events with statements -/

/-- An event below `info` from a part of the program that reports the text of statements, or from a
part of such a part. -/
def Event.TellsStatement (e : Event) : Prop :=
  e.level < .info ∧ ∃ target ∈ Config.statementTargets, target.toList <+: e.target.toList

/-- No event that may have the text of a statement passes, inside of spans or outside. -/
def Filter.HidesStatements (f : Filter) : Prop :=
  ∀ e : Event, e.TellsStatement → f.enables e = false ∧ ∀ s, f.enablesWithin s e = false

/-- A text without commas is read as a directive. -/
def Directive.IsText (text : String) (d : Directive) : Prop :=
  text.toList ≠ [] ∧ ',' ∉ text.toList ∧ Directive.parse text.toList = .ok d

instance (text : String) (d : Directive) : Decidable (Directive.IsText text d) :=
  inferInstanceAs (Decidable (_ ∧ _ ∧ _))

/-- Directives with commas between them are read one by one. -/
theorem Filter.parse_intercalate {texts : List String} {f : Filter} (hne : texts ≠ [])
    (h : List.Forall₂ Directive.IsText texts f) : Filter.parse (",".intercalate texts) = .ok f := by
  have htexts : ∀ cs ∈ texts.map String.toList, ',' ∉ cs ∧ !cs.isEmpty := by
    intro cs hcs
    obtain ⟨text, htext, rfl⟩ := List.mem_map.mp hcs
    obtain ⟨d, -, hnonempty, hcomma, -⟩ := Outcome.exists_mem_of_forall₂ h htext
    exact ⟨hcomma, by simpa using hnonempty⟩
  have hsplit : (",".intercalate texts).toList.splitOn ',' = texts.map String.toList := by
    rw [String.toList_intercalate]
    exact List.splitOn_intercalate ',' (fun cs hcs => (htexts cs hcs).1) (by simpa using hne)
  rw [Filter.parse, hsplit, List.filter_eq_self.mpr fun cs hcs => (htexts cs hcs).2]
  exact Outcome.mapM_eq_ok.mpr (List.forall₂_map_left_iff.mpr (h.imp fun _ _ hd => hd.2.2))

namespace Config

/-- The directives of the filter by level. -/
def levelDirectives (c : Config) : Filter :=
  (ownTargets.map fun target => { target, threshold := some c.level }) ++
    [{ target := "sqlx", threshold := some .warn }] ++
    if !c.sql && decide (c.level < .info) then
      statementTargets.map fun target => { target, threshold := some .info }
    else []

/-- The directives of the filter by level are written with their targets and levels. -/
theorem isText_directiveText : ∀ target ∈ "sqlx" :: ownTargets ++ statementTargets, ∀ level : Level,
    Directive.IsText (directiveText target level.lowerName)
      { target, threshold := some level } := by
  intro target htarget level
  cases level <;> revert target <;> decide +kernel

/-- The text of the filter by level is read as its directives. -/
theorem filter_eq_levelDirectives {c : Config} (h : c.filterText = none) :
    c.filter = .ok c.levelDirectives := by
  have hwritten : ∀ (targets : List String) (level : Level),
      (∀ target ∈ targets, target ∈ "sqlx" :: ownTargets ++ statementTargets) →
      List.Forall₂ Directive.IsText (targets.map (directiveText · level.lowerName))
        (targets.map fun target => { target, threshold := some level }) := by
    intro targets level htargets
    rw [List.forall₂_map_left_iff, List.forall₂_map_right_iff, List.forall₂_same]
    exact fun target htarget => isText_directiveText target (htargets target htarget) level
  rw [filter, h, Option.getD_none, levelFilterText, levelDirectives]
  refine Filter.parse_intercalate (by simp) (List.rel_append ?_ ?_)
  · exact List.rel_append (hwritten ownTargets c.level (by decide))
      (hwritten ["sqlx"] .warn (by decide))
  · split
    · exact hwritten statementTargets .info (by decide)
    · exact .nil

theorem mem_levelDirectives_iff {c : Config} {d : Directive} :
    d ∈ c.levelDirectives ↔ d.span = none ∧ d.field = none ∧
      (d.target ∈ ownTargets ∧ d.threshold = some c.level ∨
        d.target = "sqlx" ∧ d.threshold = some .warn ∨
        (c.sql = false ∧ c.level < .info) ∧ d.target ∈ statementTargets ∧
          d.threshold = some .info) := by
  obtain ⟨target, span, field, threshold⟩ := d
  rw [levelDirectives]
  split <;> simp_all [ownTargets, statementTargets] <;> grind

/-- The filter by level lets no statement pass unless it was asked for. -/
theorem hidesStatements_levelDirectives {c : Config} (hsql : c.sql = false) :
    c.levelDirectives.HidesStatements := by
  rintro e ⟨hlevel, target, htarget, hprefix⟩
  have hspans : ∀ d ∈ c.levelDirectives, d.span = none := fun d hd =>
    (mem_levelDirectives_iff.mp hd).1
  suffices hdropped : c.levelDirectives.enables e = false from
    ⟨hdropped, fun s => by rwa [Filter.enablesWithin_eq hspans]⟩
  by_contra hpasses
  obtain ⟨d, hdecides, hadmits⟩ := Filter.enables_iff.mp (Bool.of_not_eq_false hpasses)
  have hle : ∀ level, d.threshold = some level → level.rank ≤ e.level.rank := by
    intro level hthreshold
    rw [Threshold.admits, hthreshold] at hadmits
    exact of_decide_eq_true hadmits
  have hrank : e.level.rank < Level.info.rank := hlevel
  -- below `info` there is a directive for the part of the program, so none with a shorter target
  have hlong : c.level < .info →
      Target.execution.length ≤ d.target.length := by
    intro hc
    have hmem : { target, threshold := some .info } ∈ c.levelDirectives :=
      mem_levelDirectives_iff.mpr ⟨rfl, rfl, .inr (.inr ⟨⟨hsql, hc⟩, htarget, rfl⟩)⟩
    have happlies : Directive.applies { target, threshold := some .info } e := by
      simpa [Directive.applies, Directive.isStatic, Directive.covers] using hprefix
    have hlength : ∀ target ∈ statementTargets, Target.execution.length ≤ target.length := by
      decide
    exact (hlength target htarget).trans
      (Directive.length_le_of_outweighs (hdecides.outweighs hmem happlies))
  obtain ⟨-, -, ⟨htarget, hthreshold⟩ | ⟨-, hthreshold⟩ | ⟨-, -, hthreshold⟩⟩ :=
    mem_levelDirectives_iff.mp hdecides.mem
  · have hbelow : c.level < .info := (hle c.level hthreshold).trans_lt hrank
    have hshort : ∀ own ∈ ownTargets, own.length < Target.execution.length := by decide
    exact absurd (hlong hbelow) (Nat.not_le.mpr (hshort d.target htarget))
  · exact absurd (hle .warn hthreshold) (Nat.not_le.mpr (hrank.trans (by decide)))
  · exact absurd (hle .info hthreshold) (Nat.not_le.mpr hrank)

/-- What a builder says about statements, the logging of its configuration says as well. -/
theorem sql_eq_of_build {settings : List Discography.Config.Setting} {core : Discography.Config}
    {c : Config} (hbuild : (Discography.Config.Builder.ofList settings).build = .ok core)
    (hc : core.logging = some c) : c.sql = core.logSql := by
  obtain ⟨location, -, rfl, -⟩ := Discography.Config.Builder.build_eq_ok_iff.mp hbuild
  obtain ⟨given, -, rfl⟩ := Option.map_eq_some_iff.mp hc
  rfl

/-- Once a configuration is installed, its filter and its sink are in place. -/
theorem subscriber_of_install {c : Config} {f : Filter} (hf : c.filter = .ok f) {s s' : State}
    (h : s.install c = .ok s') : s'.subscriber = some ⟨f, c.sink⟩ := by
  rw [State.install, hf] at h
  cases hs : s.subscriber with
  | none =>
    simp only [hs] at h
    obtain rfl := Except.ok.inj h
    rfl
  | some subscriber =>
    simp only [hs] at h
    cases h

end Config

/-! ### What is logged in addition -/

namespace State

variable {R : Event → Prop} {s s' s'' : State}

/-- The subscriber stays, and what the sink received in addition comes from events with a property,
none of which may have the text of a statement. -/
def Adds (R : Event → Prop) (s s' : State) : Prop :=
  s'.subscriber = s.subscriber ∧ ∃ entries, s'.received = s.received ++ entries ∧
    ∀ entry ∈ entries, ∃ e, R e ∧ ¬ e.TellsStatement ∧ entry = e.entry none

theorem adds_refl (s : State) : s.Adds R s := ⟨rfl, [], (List.append_nil _).symm, nofun⟩

theorem Adds.trans (h : s.Adds R s') (h' : s'.Adds R s'') : s.Adds R s'' := by
  obtain ⟨hsubscriber, entries, hentries, hopen⟩ := h
  obtain ⟨hsubscriber', more, hmore, hopen'⟩ := h'
  refine ⟨hsubscriber'.trans hsubscriber, entries ++ more, ?_,
    List.forall_mem_append.mpr ⟨hopen, hopen'⟩⟩
  rw [hmore, hentries, List.append_assoc]

/-- An event that may have the text of a statement is lost, and another one leads to an entry at
most. -/
theorem adds_emit {subscriber : Subscriber} (hs : s.subscriber = some subscriber)
    (hhides : subscriber.filter.HidesStatements) {e : Event} (he : e.TellsStatement ∨ R e) :
    s.Adds R (s.emit e) := by
  obtain ⟨f, sink⟩ := subscriber
  cases sink with
  | none =>
    rw [emit, hs]
    exact s.adds_refl
  | some sink =>
    have hemit : s.emit e = if f.enables e && decide (sink.minLevel ≤ e.level) then
        s.deliver sink (e.entry none) else s := by
      rw [emit, hs]
      rfl
    rw [hemit]
    by_cases htells : e.TellsStatement
    · rw [(hhides e htells).1]
      exact s.adds_refl
    · split
      · exact ⟨rfl, [e.entry none], rfl,
          List.forall_mem_singleton.mpr ⟨e, he.resolve_left htells, htells, rfl⟩⟩
      · exact s.adds_refl

end State

end Log

/-! ### Sessions -/

variable {σ ε δ α β : Type}

/-- The events that a host reports about calls. -/
def Host.Reports (h : Host σ) (e : Log.Event) : Prop :=
  ∃ (call : Call) (reply : call.Reply), e ∈ h.report call reply

namespace Session

variable {subscriber : Log.Subscriber} {R : Log.Event → Prop}

/-- With the subscriber in place, a session logs events with a property only, and none that may have
the text of a statement. -/
def Discreet (subscriber : Log.Subscriber) (R : Log.Event → Prop) (s : Session σ ε α) : Prop :=
  ∀ w : World σ, w.log.subscriber = some subscriber → w.log.Adds R (s.run.run w).2.log

theorem discreet_of_log_eq {s : Session σ ε α} (h : ∀ w, (s.run.run w).2.log = w.log) :
    s.Discreet subscriber R := by
  intro w _
  rw [h w]
  exact w.log.adds_refl

theorem discreet_pure (a : α) : (pure a : Session σ ε α).Discreet subscriber R :=
  discreet_of_log_eq fun _ => rfl

theorem discreet_ofExcept (x : Except ε α) : (ofExcept x : Session σ ε α).Discreet subscriber R :=
  discreet_of_log_eq fun w => by rw [run_ofExcept]

theorem discreet_overflow : (overflow : Session σ ε α).Discreet subscriber R :=
  discreet_of_log_eq fun _ => rfl

theorem Discreet.bind {s : Session σ ε α} {f : α → Session σ ε β} (hs : s.Discreet subscriber R)
    (hf : ∀ a, (f a).Discreet subscriber R) : (s >>= f).Discreet subscriber R := by
  intro w hw
  have hadds := hs w hw
  rw [run_bind]
  rcases hrun : s.run.run w with ⟨stop | a, w'⟩
  · rw [hrun] at hadds
    exact hadds
  · rw [hrun] at hadds
    exact hadds.trans (hf a w' (hadds.1.trans hw))

theorem Discreet.attempt {s : Session σ ε α} (hs : s.Discreet subscriber R) :
    (s.attempt : Session σ δ (Except ε α)).Discreet subscriber R := hs

theorem Discreet.mapError {s : Session σ ε α} (hs : s.Discreet subscriber R) (f : ε → δ) :
    (s.mapError f).Discreet subscriber R :=
  hs.attempt.bind fun _ => discreet_ofExcept _

theorem discreet_report (hhides : subscriber.filter.HidesStatements) {e : Log.Event}
    (he : e.TellsStatement ∨ R e) : (report e : Session σ ε Unit).Discreet subscriber R :=
  fun _ hw => Log.State.adds_emit hw hhides he

theorem discreet_reportAll (hhides : subscriber.filter.HidesStatements) {events : List Log.Event}
    (h : ∀ e ∈ events, R e) : (reportAll events : Session σ ε Unit).Discreet subscriber R := by
  induction events with
  | nil => exact discreet_pure ()
  | cons e events ih =>
    obtain ⟨he, hevents⟩ := List.forall_mem_cons.mp h
    exact (discreet_report hhides (.inr he)).bind fun _ => ih hevents

end Session

namespace Connection

variable {subscriber : Log.Subscriber} (hhides : subscriber.filter.HidesStatements)
  (conn : Connection σ)
include hhides

theorem discreet_ask (r : Request) : (conn.ask r).Discreet subscriber conn.host.Reports := by
  intro w hw
  have hafter : ∀ reply, (conn.afterAnswer r reply).Discreet subscriber conn.host.Reports := by
    intro reply
    have hreports : ∀ e ∈ conn.host.report ⟨conn.inTransaction, r⟩ reply, conn.host.Reports e :=
      fun e he => ⟨⟨conn.inTransaction, r⟩, reply, he⟩
    exact (Session.discreet_reportAll hhides hreports).bind fun _ => Session.discreet_ofExcept _
  rw [conn.run_ask]
  exact hafter _ { w with host := _ } hw

theorem discreet_perform (r : Request) :
    (conn.perform r).Discreet subscriber conn.host.Reports :=
  (conn.discreet_ask hhides r).mapError Error.host

end Connection

/-- What is reported about the running of statements may have their text. -/
theorem Narration.tellsStatement_event (message : String) (fields : List (String × String)) :
    (Narration.event .debug message fields).TellsStatement :=
  ⟨(by decide : Log.Level.debug < .info), Log.Target.execution, List.mem_cons_self,
    List.prefix_refl _⟩

section

variable {subscriber : Log.Subscriber} (hhides : subscriber.filter.HidesStatements)
  (conn : Connection σ)
include hhides

theorem Query.discreet_fetch (q : Query) :
    (q.fetch conn).Discreet subscriber conn.host.Reports := by
  refine (Session.discreet_ofExcept q.render).bind fun rendered => ?_
  refine (Session.discreet_report hhides (.inl (Narration.tellsStatement_event _ _))).bind
    fun _ => ?_
  refine (conn.discreet_perform hhides _).bind fun rows => ?_
  refine (Session.discreet_report hhides (.inl (Narration.tellsStatement_event _ _))).bind
    fun _ => ?_
  exact Session.discreet_ofExcept _

theorem Query.discreet_count (q : Query) :
    (q.count conn).Discreet subscriber conn.host.Reports := by
  refine (Session.discreet_ofExcept q.renderCount).bind fun counted => ?_
  refine (Session.discreet_report hhides (.inl (Narration.tellsStatement_event _ _))).bind
    fun _ => ?_
  exact (conn.discreet_perform hhides _).bind fun rows => Session.discreet_ofExcept _

theorem Statement.discreet_runText (before : Outcome) (text : String) :
    (Statement.runText conn before text).Discreet subscriber conn.host.Reports := by
  refine (Session.discreet_report hhides (.inl (Narration.tellsStatement_event _ _))).bind
    fun _ => ?_
  refine (conn.discreet_perform hhides _).bind fun last => ?_
  split
  · exact Session.discreet_pure _
  · exact Session.discreet_overflow

theorem Statement.discreet_runBatch (texts : List String) :
    (Statement.runBatch texts conn).Discreet subscriber conn.host.Reports := by
  have hfold : ∀ before, (texts.foldlM (Statement.runText conn) before).Discreet subscriber
      conn.host.Reports := by
    induction texts with
    | nil => exact fun before => Session.discreet_pure before
    | cons text texts ih =>
      intro before
      rw [List.foldlM_cons]
      exact (Statement.discreet_runText hhides conn before text).bind ih
  refine (hfold {}).bind fun outcome => ?_
  exact (Session.discreet_report hhides (.inl (Narration.tellsStatement_event _ _))).bind
    fun _ => Session.discreet_pure _

end

namespace Log.Config

/-- **Statements in the log.** A configuration that does not ask for statements, be it made directly
or by a builder, has a filter that hides them as long as it has no filter text of its own: whatever
is fetched, counted or executed while the filter is installed, the sink receives nothing but what
the host reports itself, and nothing of that which may have the text of a statement. A filter text
of its own is all that counts, whether statements are asked for or not; an event passes if the
directive of that text which decides about it lets its level pass. -/
theorem statements_unlogged {c : Config}
    (hc : c.sql = false ∨ ∃ settings core,
      (Discography.Config.Builder.ofList settings).build = .ok core ∧ core.logSql = false ∧
        core.logging = some c) :
    (c.filterText = none → ∃ f, c.filter = .ok f ∧ f.HidesStatements ∧
      (∀ s s' : State, s.install c = .ok s' → s'.subscriber = some ⟨f, c.sink⟩) ∧
      ∀ {σ : Type} (conn : Connection σ) (w : World σ), w.log.subscriber = some ⟨f, c.sink⟩ →
        (∀ q : Query, w.log.Adds conn.host.Reports ((q.fetch conn).run.run w).2.log) ∧
        (∀ q : Query, w.log.Adds conn.host.Reports ((q.count conn).run.run w).2.log) ∧
        ∀ texts, w.log.Adds conn.host.Reports ((Statement.runBatch texts conn).run.run w).2.log) ∧
    ∀ text, c.filterText = some text → c.filter = Filter.parse text ∧
      ({ c with sql := true } : Config).filter = c.filter ∧
      ∀ f, c.filter = .ok f → ∀ e, f.enables e ↔
        ∃ d, f.Decides (·.applies e) d ∧ d.threshold.admits e.level := by
  have hsql : c.sql = false := by
    rcases hc with hsql | ⟨settings, core, hbuild, hlog, hlogging⟩
    · exact hsql
    · rw [sql_eq_of_build hbuild hlogging, hlog]
  refine ⟨fun htext => ?_, fun text htext => ?_⟩
  · have hhides := hidesStatements_levelDirectives hsql
    refine ⟨c.levelDirectives, filter_eq_levelDirectives htext, hhides, fun s s' hs =>
      subscriber_of_install (filter_eq_levelDirectives htext) hs, fun conn w hw => ⟨?_, ?_, ?_⟩⟩
    · exact fun q => q.discreet_fetch hhides conn w hw
    · exact fun q => q.discreet_count hhides conn w hw
    · exact fun texts => Statement.discreet_runBatch hhides conn texts w hw
  · have hparse : ∀ c' : Config, c'.filterText = some text → c'.filter = Filter.parse text := by
      intro c' htext
      rw [filter, htext]
      rfl
    exact ⟨hparse c htext, (hparse { c with sql := true } htext).trans (hparse c htext).symm,
      fun f _ e => Filter.enables_iff⟩

/-- A builder that is given a logging at `debug` with statements, and then no statements. -/
theorem statements_unlogged_builder :
    ∃ core c, (Discography.Config.Builder.ofList
        [.inMemory, .logging { level := .debug, sql := true, sink := some { minLevel := .trace } },
          .logSql false]).build = .ok core ∧
      core.logSql = false ∧ core.logging = some c ∧ c.filterText = none ∧
      ∃ f, c.filter = .ok f ∧ f.HidesStatements ∧
        ∀ s s' : State, s.install c = .ok s' → s'.subscriber = some ⟨f, c.sink⟩ := by
  obtain ⟨core, c, hbuild, hsql, hlogging, htext⟩ : ∃ core c, (Discography.Config.Builder.ofList
        [.inMemory, .logging { level := .debug, sql := true, sink := some { minLevel := .trace } },
          .logSql false]).build = .ok core ∧
      core.logSql = false ∧ core.logging = some c ∧ c.filterText = none :=
    ⟨_, _, rfl, rfl, rfl, rfl⟩
  obtain ⟨hlevels, -⟩ := statements_unlogged (.inr ⟨_, core, hbuild, hsql, hlogging⟩)
  obtain ⟨f, hf, hhides, hinstall, -⟩ := hlevels htext
  exact ⟨core, c, hbuild, hsql, hlogging, htext, f, hf, hhides, hinstall⟩

/-- With a filter text of its own, a configuration that does not ask for statements lets the text of
a statement reach the sink. -/
theorem statement_logged_by_own_filter :
    let c : Config :=
      { filterText := some "core_library=debug", sink := some { minLevel := .debug } }
    let q := Query.ofTable .sqlite ⟨"a", .path ["a"], [{ name := "x", type := .number }]⟩
    c.sql = false ∧ ∃ (f : Filter) (log : State), c.filter = .ok f ∧ ¬ f.HidesStatements ∧
      State.install {} c = .ok log ∧
      ((q.fetch ⟨.scripted, false⟩).run.run ⟨{}, none, log⟩).2.log.received.map
          (fun entry => (entry.level, entry.target, entry.fields)) =
        [(.debug, Target.execution, [("sql", "SELECT `a`.`x` AS `x` FROM `a` AS `a`")]),
          (.debug, Target.execution, [("rows", "0")])] := by
  refine ⟨rfl, _, _, rfl, fun hhides => ?_, rfl, by decide +kernel⟩
  have hdropped := (hhides _ (Narration.tellsStatement_event "Fetching rows" [])).1
  revert hdropped
  decide

end Log.Config

end Discography
