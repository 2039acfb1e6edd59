import Discography.Host.Session
import Discography.Proofs.Identifier.Order
import Mathlib.Data.List.Basic

/-!
# Transcripts of sessions

What a session does to the database is the list of its calls with their replies. A host can keep
that list, and then a session is described by the transcripts that it may leave and by the result
that goes with each: whatever the host replies, whatever its clock and its random source say, and
whatever is logged.

## Main definitions

* `Exchange`, `Transcript`: calls with their replies
* `Transcript.executed`, `Transcript.outcomes`, `Transcript.failures`: what ran, and what did not
* `Host.recorded`: a host that keeps them
* `Host.Gives`: the states that a host passes through while it replies
* `Session.Conforms`: every run of a session leaves a transcript and a result of a given kind

## Main results

* `Session.Conforms.bind`, `Session.Conforms.attempt`: how sessions are composed
* `Connection.conforms_attempt_ask_bind`, `Connection.conforms_perform_bind`: what follows a call
* `Connection.conforms_nextIdentifier`: drawing an identifier makes no call
-/

namespace Discography

/-- A call and the reply to it. -/
structure Exchange where
  call : Call
  reply : call.Reply

/-- Calls in order, with their replies. -/
abbrev Transcript := List Exchange

/-! ### What a transcript shows -/

namespace Exchange

/-- Whether the host did what it was asked for. -/
def succeeded (x : Exchange) : Bool := x.reply.toBool

/-- Why the host did not do what it was asked for. -/
@[simp] def failure? (x : Exchange) : Option HostError :=
  match x.reply with
  | .ok _ => none
  | .error failure => some failure

/-- The text that was to run. -/
@[simp] def text? (x : Exchange) : Option String :=
  match x.call.request with
  | .execute sql => some sql
  | _ => none

/-- The outcome of a text that ran. -/
@[simp] def outcome? : Exchange → Option Outcome
  | ⟨⟨_, .execute _⟩, .ok outcome⟩ => some outcome
  | _ => none

/-- Whether a transaction was opened. -/
@[simp] def opens : Exchange → Bool
  | ⟨⟨_, .start⟩, .ok ()⟩ => true
  | _ => false

/-- Whether a transaction could not be committed. -/
@[simp] def abandons : Exchange → Bool
  | ⟨⟨_, .commit⟩, .error _⟩ => true
  | _ => false

end Exchange

namespace Transcript

/-- The exchanges about texts that were to run. -/
def executed (t : Transcript) : Transcript := t.filter (·.text?.isSome)

/-- The texts that were to run, in order. -/
def texts (t : Transcript) : List String := t.filterMap Exchange.text?

/-- The outcomes of the texts that ran, in order. -/
def outcomes (t : Transcript) : List Outcome := t.filterMap Exchange.outcome?

/-- What went wrong, in order. -/
def failures (t : Transcript) : List HostError := t.filterMap Exchange.failure?

/-- Whether a transaction was opened. -/
def opened (t : Transcript) : Bool := t.any Exchange.opens

/-- Whether a text did not run. -/
def failed (t : Transcript) : Bool := t.executed.any (!·.succeeded)

/-- Whether a transaction could not be committed. -/
def abandoned (t : Transcript) : Bool := t.any Exchange.abandons

/-- How often the host was asked for something. -/
def countOf (t : Transcript) (r : Request) : Nat := t.countP (·.call.request = r)

section

variable (x : Exchange) (t t' : Transcript)

@[simp] theorem executed_nil : executed [] = [] := rfl

@[simp] theorem executed_cons :
    executed (x :: t) = if x.text?.isSome then x :: t.executed else t.executed :=
  List.filter_cons ..

@[simp] theorem executed_append : executed (t ++ t') = t.executed ++ t'.executed :=
  List.filter_append ..

@[simp] theorem texts_nil : texts [] = [] := rfl

@[simp] theorem texts_cons : texts (x :: t) = x.text?.toList ++ t.texts := by
  rw [texts, List.filterMap_cons]
  cases x.text? <;> rfl

@[simp] theorem texts_append : texts (t ++ t') = t.texts ++ t'.texts := List.filterMap_append ..

@[simp] theorem outcomes_nil : outcomes [] = [] := rfl

@[simp] theorem outcomes_cons : outcomes (x :: t) = x.outcome?.toList ++ t.outcomes := by
  rw [outcomes, List.filterMap_cons]
  cases x.outcome? <;> rfl

@[simp] theorem outcomes_append : outcomes (t ++ t') = t.outcomes ++ t'.outcomes :=
  List.filterMap_append ..

@[simp] theorem failures_nil : failures [] = [] := rfl

@[simp] theorem failures_cons : failures (x :: t) = x.failure?.toList ++ t.failures := by
  rw [failures, List.filterMap_cons]
  cases x.failure? <;> rfl

@[simp] theorem failures_append : failures (t ++ t') = t.failures ++ t'.failures :=
  List.filterMap_append ..

@[simp] theorem opened_nil : opened [] = false := rfl

@[simp] theorem opened_cons : opened (x :: t) = (x.opens || t.opened) := rfl

@[simp] theorem opened_append : opened (t ++ t') = (t.opened || t'.opened) := List.any_append

@[simp] theorem failed_nil : failed [] = false := rfl

@[simp] theorem failed_cons :
    failed (x :: t) = ((x.text?.isSome && !x.succeeded) || t.failed) := by
  rw [failed, failed, executed_cons]
  cases x.text?.isSome <;> rfl

@[simp] theorem failed_append : failed (t ++ t') = (t.failed || t'.failed) := by
  rw [failed, executed_append, List.any_append, failed, failed]

@[simp] theorem abandoned_nil : abandoned [] = false := rfl

@[simp] theorem abandoned_cons : abandoned (x :: t) = (x.abandons || t.abandoned) := rfl

@[simp] theorem abandoned_append : abandoned (t ++ t') = (t.abandoned || t'.abandoned) :=
  List.any_append

@[simp] theorem countOf_nil (r : Request) : countOf [] r = 0 := rfl

@[simp] theorem countOf_cons (r : Request) :
    countOf (x :: t) r = t.countOf r + if x.call.request = r then 1 else 0 := by
  simp [countOf, List.countP_cons]

@[simp] theorem countOf_append (r : Request) :
    countOf (t ++ t') r = t.countOf r + t'.countOf r := List.countP_append

end

end Transcript

/-! ### Hosts that keep their transcript -/

variable {σ ε δ α β : Type}

namespace Host

/-- The host that also keeps the calls made to it with their replies, in order. -/
def recorded (h : Host σ) : Host (σ × Transcript) where
  answer c s := ((h.answer c s.1).1, (h.answer c s.1).2, s.2 ++ [⟨c, (h.answer c s.1).1⟩])
  ids :=
    { now := fun s => ((h.ids.now s.1).1, (h.ids.now s.1).2, s.2)
      noise := fun s => ((h.ids.noise s.1).1, (h.ids.noise s.1).2, s.2) }
  health := h.health.beside Transcript
  report := h.report

/-- The host replies as the transcript says, and comes from the first state to the last one. Between
the calls it may have been asked for the time and for random bytes. -/
inductive Gives (h : Host σ) : σ → Transcript → σ → Prop
  | nil (s : σ) : h.Gives s [] s
  | call {s s' : σ} {t : Transcript} (c : Call) :
    h.Gives (h.answer c s).2 t s' → h.Gives s (⟨c, (h.answer c s).1⟩ :: t) s'
  | now {s s' : σ} {t : Transcript} : h.Gives (h.ids.now s).2 t s' → h.Gives s t s'
  | noise {s s' : σ} {t : Transcript} : h.Gives (h.ids.noise s).2 t s' → h.Gives s t s'

theorem Gives.append {h : Host σ} {s s' s'' : σ} {t t' : Transcript} (ht : h.Gives s t s')
    (ht' : h.Gives s' t' s'') : h.Gives s (t ++ t') s'' := by
  induction ht with
  | nil => exact ht'
  | call c _ ih => exact .call c (ih ht')
  | now _ ih => exact .now (ih ht')
  | noise _ ih => exact .noise (ih ht')

/-- The generator asks for the time, and then for random bytes if it needs any. -/
theorem generate_recorded (h : Host σ) (last : Option Identifier.Stamp) (s : σ × Transcript) :
    ∃ s', (Identifier.generate h.recorded.ids last s).2.2 = (s', s.2) ∧ h.Gives s.1 [] s' := by
  simp only [Identifier.generate, recorded]
  split
  · exact ⟨_, rfl, .now (.nil _)⟩
  · cases (h.ids.noise (h.ids.now s.1).2).1
    · exact ⟨_, rfl, .now (.noise (.nil _))⟩
    · exact ⟨_, rfl, .now (.noise (.nil _))⟩

end Host

/-! ### Sessions -/

namespace Session

/-- A session makes calls and ends in a way that satisfies the condition, whatever the world is. -/
def Conforms (h : Host σ) (s : Session (σ × Transcript) ε α)
    (P : Transcript → Except (Stop ε) α → Prop) : Prop :=
  ∀ w, ∃ t, (s.run.run w).2.host.2 = w.host.2 ++ t ∧
    h.Gives w.host.1 t (s.run.run w).2.host.1 ∧ P t (s.run.run w).1

variable {h : Host σ} {s : Session (σ × Transcript) ε α}
  {P Q : Transcript → Except (Stop ε) α → Prop}

theorem Conforms.mono (hs : s.Conforms h P) (hPQ : ∀ t r, P t r → Q t r) : s.Conforms h Q := by
  intro w
  obtain ⟨t, ht, hgives, hP⟩ := hs w
  exact ⟨t, ht, hgives, hPQ t _ hP⟩

/-- A session that leaves the host alone makes no calls. -/
theorem conforms_of_host_eq (hs : ∀ w, (s.run.run w).2.host = w.host ∧ P [] (s.run.run w).1) :
    s.Conforms h P := by
  intro w
  obtain ⟨hhost, hP⟩ := hs w
  rw [hhost]
  exact ⟨[], by simp, .nil _, hP⟩

theorem conforms_pure {a : α} (hP : P [] (.ok a)) :
    (pure a : Session (σ × Transcript) ε α).Conforms h P :=
  conforms_of_host_eq fun _ => ⟨rfl, hP⟩

theorem conforms_fail {cause : ε} (hP : P [] (.error (.error cause))) :
    (fail cause : Session (σ × Transcript) ε α).Conforms h P :=
  conforms_of_host_eq fun _ => ⟨rfl, hP⟩

theorem conforms_overflow (hP : P [] (.error (.defect .overflow))) :
    (overflow : Session (σ × Transcript) ε α).Conforms h P :=
  conforms_of_host_eq fun _ => ⟨rfl, hP⟩

theorem run_ofExcept (x : Except ε α) (w : World σ) :
    (ofExcept x : Session σ ε α).run.run w = (x.mapError .error, w) := by
  cases x <;> rfl

theorem ofExcept_ok_bind (a : α) (f : α → Session σ ε β) : (ofExcept (.ok a) >>= f) = f a :=
  pure_bind a f

theorem ofExcept_error_bind (cause : ε) (f : α → Session σ ε β) :
    (ofExcept (.error cause) >>= f) = fail cause := rfl

theorem map_ofExcept (f : α → β) (x : Except ε α) :
    (f <$> ofExcept x : Session σ ε β) = ofExcept (x.map f) := by
  cases x <;> rfl

theorem conforms_ofExcept {x : Except ε α} (hP : P [] (x.mapError .error)) :
    (ofExcept x : Session (σ × Transcript) ε α).Conforms h P :=
  conforms_of_host_eq fun w => by
    rw [run_ofExcept]
    exact ⟨rfl, hP⟩

theorem run_bind {f : α → Session σ ε β} {s : Session σ ε α} (w : World σ) :
    (s >>= f).run.run w = match s.run.run w with
      | (.ok a, w') => (f a).run.run w'
      | (.error stop, w') => (.error stop, w') := by
  rw [ExceptT.run_bind, StateT.run_bind]
  change (match s.run.run w with | (r, w') => _) = _
  rcases s.run.run w with ⟨stop | a, w'⟩ <;> rfl

/-- One session after another. If the first one ends without a result, so does the whole; otherwise
the calls of the second one follow those of the first. -/
theorem Conforms.bind {f : α → Session (σ × Transcript) ε β}
    {Q : Transcript → Except (Stop ε) β → Prop} (hs : s.Conforms h P)
    (hok : ∀ t a, P t (.ok a) → (f a).Conforms h fun t' r => Q (t ++ t') r)
    (herror : ∀ t stop, P t (.error stop) → Q t (.error stop)) : (s >>= f).Conforms h Q := by
  intro w
  obtain ⟨t, ht, hgives, hP⟩ := hs w
  rw [run_bind]
  rcases hr : s.run.run w with ⟨stop | a, w'⟩
  · rw [hr] at ht hgives hP
    exact ⟨t, ht, hgives, herror t stop hP⟩
  · rw [hr] at ht hgives hP
    obtain ⟨t', ht', hgives', hQ⟩ := hok t a hP w'
    exact ⟨t ++ t', by rw [ht', ht, List.append_assoc], hgives.append hgives', hQ⟩

/-- The error of a session as its result. -/
theorem Conforms.attempt {Q : Transcript → Except (Stop δ) (Except ε α) → Prop}
    (hs : s.Conforms h P) (hPQ : ∀ t r, P t r → Q t (settled r)) :
    (s.attempt : Session (σ × Transcript) δ (Except ε α)).Conforms h Q := by
  intro w
  obtain ⟨t, ht, hgives, hP⟩ := hs w
  exact ⟨t, ht, hgives, hPQ t _ hP⟩

theorem conforms_report {e : Log.Event} {P : Transcript → Except (Stop ε) Unit → Prop}
    (hP : P [] (.ok ())) : (report e : Session (σ × Transcript) ε Unit).Conforms h P :=
  conforms_of_host_eq fun _ => ⟨rfl, hP⟩

theorem conforms_reportAll {events : List Log.Event} {P : Transcript → Except (Stop ε) Unit → Prop}
    (hP : P [] (.ok ())) : (reportAll events : Session (σ × Transcript) ε Unit).Conforms h P := by
  induction events with
  | nil => exact conforms_pure hP
  | cons e events ih =>
    refine Conforms.bind (P := fun t r => t = [] ∧ r = .ok ()) (conforms_report ⟨rfl, rfl⟩) ?_ ?_
    · rintro t _ ⟨rfl, -⟩
      exact ih
    · rintro t stop ⟨-, hstop⟩
      cases hstop

/-- Events before a session change nothing about it. -/
theorem Conforms.report_bind {e : Log.Event} (hs : s.Conforms h P) :
    (do report e; s : Session (σ × Transcript) ε α).Conforms h P :=
  Conforms.bind (P := fun t r => t = [] ∧ r = .ok ()) (conforms_report ⟨rfl, rfl⟩)
    (fun _ _ ht => ht.1 ▸ hs) fun _ _ ht => by cases ht.2

theorem Conforms.reportAll_bind {events : List Log.Event} (hs : s.Conforms h P) :
    (do reportAll events; s : Session (σ × Transcript) ε α).Conforms h P :=
  Conforms.bind (P := fun t r => t = [] ∧ r = .ok ()) (conforms_reportAll ⟨rfl, rfl⟩)
    (fun _ _ ht => ht.1 ▸ hs) fun _ _ ht => by cases ht.2

end Session

namespace Connection

/-- What follows the answer of the host to a request: the events that the host has for it, and the
end with its reply. -/
def afterAnswer (conn : Connection σ) (r : Request) (reply : Except HostError r.Answer) :
    Session σ HostError r.Answer := do
  Session.reportAll (conn.host.report ⟨conn.inTransaction, r⟩ reply)
  Session.ofExcept reply

theorem run_ask (conn : Connection σ) (r : Request) (w : World σ) :
    (conn.ask r).run.run w =
      (conn.afterAnswer r (conn.host.answer ⟨conn.inTransaction, r⟩ w.host).1).run.run
        { w with host := (conn.host.answer ⟨conn.inTransaction, r⟩ w.host).2 } := rfl

/-- The connection to the host that keeps the transcript. -/
def recorded (conn : Connection σ) : Connection (σ × Transcript) :=
  ⟨conn.host.recorded, conn.inTransaction⟩

/-- A call leaves itself and its reply, which is the result. -/
theorem conforms_ask (conn : Connection σ) (r : Request) :
    (conn.recorded.ask r).Conforms conn.host fun t result =>
      ∃ reply : Call.Reply ⟨conn.inTransaction, r⟩,
        t = [⟨⟨conn.inTransaction, r⟩, reply⟩] ∧ result = reply.mapError .error := by
  intro w
  let reply := (conn.host.answer ⟨conn.inTransaction, r⟩ w.host.1).1
  have hrest : (do
      Session.reportAll (conn.host.report ⟨conn.inTransaction, r⟩ reply)
      Session.ofExcept reply : Session (σ × Transcript) HostError r.Answer).Conforms conn.host
      fun t result => t = [] ∧ result = reply.mapError .error :=
    (Session.conforms_ofExcept ⟨rfl, rfl⟩).reportAll_bind
  -- the calls are made in the world behind the call
  obtain ⟨t, ht, hgives, rfl, hresult⟩ :=
    hrest { w with host := (conn.recorded.host.answer ⟨conn.inTransaction, r⟩ w.host).2 }
  refine ⟨[⟨⟨conn.inTransaction, r⟩, reply⟩], ?_, ?_, reply, rfl, hresult⟩
  · refine ht.trans ?_
    rw [List.append_nil]
    rfl
  · exact .call _ hgives

variable (conn : Connection σ) {r : Request}

/-- What comes behind a call whose reply is looked at. -/
theorem conforms_attempt_ask_bind {f : Call.Reply ⟨conn.inTransaction, r⟩ → Session _ ε α}
    {Q : Transcript → Except (Stop ε) α → Prop}
    (hf : ∀ reply, (f reply).Conforms conn.host fun t result =>
      Q (⟨⟨conn.inTransaction, r⟩, reply⟩ :: t) result) :
    ((conn.recorded.ask r).attempt >>= f).Conforms conn.host Q := by
  have hask : ((conn.recorded.ask r).attempt : Session _ ε _).Conforms conn.host
      fun t result => ∃ reply : Call.Reply ⟨conn.inTransaction, r⟩,
        t = [⟨⟨conn.inTransaction, r⟩, reply⟩] ∧ result = .ok reply := by
    refine (conn.conforms_ask r).attempt ?_
    rintro t _ ⟨reply, rfl, rfl⟩
    refine ⟨reply, rfl, ?_⟩
    cases reply <;> rfl
  refine hask.bind ?_ ?_
  · rintro t reply ⟨_, rfl, hreply⟩
    obtain rfl := Except.ok.inj hreply
    exact hf reply
  · rintro t stop ⟨reply, -, hreply⟩
    cases hreply

/-- What comes behind a call whose failure is an error of the library. -/
theorem conforms_perform_bind {f : r.Answer → Session _ Error α}
    {Q : Transcript → Except (Stop Error) α → Prop}
    (hok : ∀ a, (f a).Conforms conn.host fun t result =>
      Q (⟨⟨conn.inTransaction, r⟩, .ok a⟩ :: t) result)
    (herror : ∀ failure, Q [⟨⟨conn.inTransaction, r⟩, .error failure⟩]
      (.error (.error (.host failure)))) :
    (conn.recorded.perform r >>= f).Conforms conn.host Q := by
  have hperform : (conn.recorded.perform r).Conforms conn.host fun t result =>
      ∃ reply : Call.Reply ⟨conn.inTransaction, r⟩,
        t = [⟨⟨conn.inTransaction, r⟩, reply⟩] ∧
          result = reply.mapError fun failure => .error (.host failure) := by
    refine conforms_attempt_ask_bind conn fun reply =>
      Session.conforms_ofExcept ⟨reply, rfl, ?_⟩
    cases reply <;> rfl
  refine hperform.bind ?_ ?_
  · rintro t a ⟨reply, rfl, ha⟩
    cases reply with
    | error failure => cases ha
    | ok a' =>
      obtain rfl := Except.ok.inj ha
      exact hok a
  · rintro t stop ⟨reply, rfl, hstop⟩
    cases reply with
    | ok a => cases hstop
    | error failure =>
      obtain rfl := Except.error.inj hstop
      exact herror failure

/-- Drawing an identifier makes no call of the database, and fails with an error of the random
source only. -/
theorem conforms_nextIdentifier :
    conn.recorded.nextIdentifier.Conforms conn.host fun t result =>
      t = [] ∧ ((∃ id, result = .ok id) ∨
        ∃ cause, conn.host.ids.FailsWith cause ∧ result = .error (.error cause)) := by
  intro w
  obtain ⟨s, hs, hgives⟩ := conn.host.generate_recorded w.stamp w.host
  have hrun : conn.recorded.nextIdentifier.run.run w =
      ((Identifier.generate conn.host.recorded.ids w.stamp w.host).1.mapError .error,
        { w with
          host := (Identifier.generate conn.host.recorded.ids w.stamp w.host).2.2
          stamp := (Identifier.generate conn.host.recorded.ids w.stamp w.host).2.1 }) :=
    Session.run_ofExcept _ _
  rw [hrun]
  refine ⟨[], ?_, ?_, rfl, ?_⟩
  · rw [List.append_nil, hs]
  · rw [hs]
    exact hgives
  · cases hid : (Identifier.generate conn.host.recorded.ids w.stamp w.host).1 with
    | error cause =>
      -- the recorded source fails where the source of the host does
      obtain ⟨state, hnoise⟩ := Identifier.failsWith_of_generate hid
      exact .inr ⟨cause, ⟨state.1, hnoise⟩, rfl⟩
    | ok id => exact .inl ⟨id, rfl⟩

end Connection

end Discography
