import Discography.Execution.Batch
import Discography.Proofs.Execution.Bracket

/-!
# The protocol of statements

Which calls a statement makes and what it returns, for all replies that a host may give. The texts
of a statement run in order up to the first failure. Several texts run in a transaction, which is
ended once, or on the connection itself where the host has no transactions to offer.

## Main definitions

* `Statement.Ran`: texts that ran one after the other
* `Outcome.IsTotal`: the outcome of several texts
* `Statement.Protocol`: the calls of a statement with its result

## Main results

* `Statement.conforms_execute`: a statement keeps to the protocol, unless its affected rows exceed
  64 bits
* `Statement.execute_follows_protocol`: the same, with what the protocol amounts to
-/

namespace Discography

variable {σ : Type}

/-! ### Totals -/

/-- How many rows were affected in all. -/
def Outcome.totalRows : List Outcome → Nat
  | [] => 0
  | outcome :: outcomes => outcome.rowsAffected.toNat + totalRows outcomes

/-- What is reported of several texts: the exact sum of the rows, and the key that the last text
reports. -/
structure Outcome.IsTotal (outcomes : List Outcome) (total : Outcome) : Prop where
  rows : total.rowsAffected.toNat = totalRows outcomes
  last : total.lastInsertId = outcomes.getLast?.bind (·.lastInsertId)

/-- The outcomes determine their total, wherever the texts ran. -/
theorem Outcome.IsTotal.iff_eq {outcomes : List Outcome} {total : Outcome}
    (h : IsTotal outcomes total) (other : Outcome) : IsTotal outcomes other ↔ total = other := by
  constructor
  · intro hother
    have hrows : total.rowsAffected = other.rowsAffected :=
      UInt64.toNat_inj.1 (h.rows.trans hother.rows.symm)
    have hlast : total.lastInsertId = other.lastInsertId := h.last.trans hother.last.symm
    cases total
    cases other
    cases hrows
    cases hlast
    rfl
  · rintro rfl
    exact h

theorem Outcome.isTotal_nil : IsTotal [] {} := ⟨rfl, rfl⟩

namespace Statement

theorem totalRows_concat (outcomes : List Outcome) (last : Outcome) :
    Outcome.totalRows (outcomes ++ [last]) =
      Outcome.totalRows outcomes + last.rowsAffected.toNat := by
  induction outcomes with
  | nil => exact Nat.add_comm _ _
  | cons outcome outcomes ih => simp [Outcome.totalRows, ih, Nat.add_assoc]

theorem isTotal_of_combine? {outcomes : List Outcome} {before last total : Outcome}
    (hbefore : Outcome.IsTotal outcomes before) (h : combine? before last = some total) :
    Outcome.IsTotal (outcomes ++ [last]) total := by
  rw [combine?] at h
  split at h
  · rename_i hlt
    obtain rfl := Option.some.inj h
    constructor
    · rw [totalRows_concat, ← hbefore.rows, UInt64.toNat_add]
      exact Nat.mod_eq_of_lt hlt
    · simp
  · cases h

theorem le_totalRows_of_combine? {outcomes : List Outcome} {before last : Outcome}
    (hbefore : Outcome.IsTotal outcomes before) (h : combine? before last = none) :
    UInt64.size ≤ Outcome.totalRows (outcomes ++ [last]) := by
  rw [combine?] at h
  split at h
  · cases h
  · rw [totalRows_concat, ← hbefore.rows]
    omega

/-! ### Texts in order -/

/-- Texts ran in order on a connection, up to the first failure. -/
inductive Ran (inTransaction : Bool) :
    List String → Transcript → Except HostError (List Outcome) → Prop
  | nil : Ran inTransaction [] [] (.ok [])
  | failed (text : String) (texts : List String) (failure : HostError) :
    Ran inTransaction (text :: texts) [⟨⟨inTransaction, .execute text⟩, .error failure⟩]
      (.error failure)
  | cons {texts : List String} {t : Transcript} {r : Except HostError (List Outcome)}
    (text : String) (outcome : Outcome) : Ran inTransaction texts t r →
    Ran inTransaction (text :: texts) (⟨⟨inTransaction, .execute text⟩, .ok outcome⟩ :: t)
      (r.map (outcome :: ·))

section Ran

variable {inTransaction : Bool} {texts : List String} {t : Transcript}
  {q : Except HostError (List Outcome)}

/-- All calls are for texts, and they are made on the same connection. -/
theorem Ran.calls (h : Ran inTransaction texts t q) :
    ∀ x ∈ t, x.call.inTransaction = inTransaction ∧ ∃ text, x.call.request = .execute text := by
  induction h with
  | nil => simp
  | failed => simp
  | cons text outcome _ ih => simpa using ih

theorem Ran.executed_eq (h : Ran inTransaction texts t q) : t.executed = t := by
  refine List.filter_eq_self.2 fun x hx => ?_
  obtain ⟨-, text, hrequest⟩ := h.calls x hx
  rw [Exchange.text?, hrequest]
  rfl

theorem Ran.countOf_eq_zero (h : Ran inTransaction texts t q) {r : Request}
    (hr : ∀ text, r ≠ .execute text) : t.countOf r = 0 := by
  refine List.countP_eq_zero.2 fun x hx => ?_
  obtain ⟨-, text, hrequest⟩ := h.calls x hx
  simpa [hrequest] using (hr text).symm

theorem Ran.opened_eq_false (h : Ran inTransaction texts t q) : t.opened = false := by
  induction h with
  | nil => rfl
  | failed => rfl
  | cons text outcome _ ih => exact ih

theorem Ran.abandoned_eq_false (h : Ran inTransaction texts t q) : t.abandoned = false := by
  induction h with
  | nil => rfl
  | failed => rfl
  | cons text outcome _ ih => exact ih

/-- The texts run in order, each of them at most once. -/
theorem Ran.texts_prefix (h : Ran inTransaction texts t q) : t.texts <+: texts := by
  induction h with
  | nil => exact List.prefix_rfl
  | failed text texts failure => exact ⟨texts, rfl⟩
  | cons text outcome _ ih => exact (List.prefix_cons_inj text).2 ih

/-- Nothing runs behind a failure. -/
theorem Ran.succeeded_of_mem_dropLast (h : Ran inTransaction texts t q) :
    ∀ x ∈ t.dropLast, x.succeeded := by
  induction h with
  | nil => simp
  | failed => simp
  | @cons texts t r text outcome _ ih =>
    cases t with
    | nil => simp
    | cons y t =>
      rw [List.dropLast_cons_cons]
      exact List.forall_mem_cons.2 ⟨rfl, ih⟩

theorem Ran.of_ok {outcomes : List Outcome} (h : Ran inTransaction texts t (.ok outcomes)) :
    t.outcomes = outcomes ∧ outcomes.length = texts.length ∧ t.failures = [] ∧
      t.failed = false := by
  generalize hq : Except.ok outcomes = q at h
  induction h generalizing outcomes with
  | nil =>
    obtain rfl := Except.ok.inj hq
    exact ⟨rfl, rfl, rfl, rfl⟩
  | failed => cases hq
  | @cons texts t r text outcome _ ih =>
    cases r with
    | error failure => cases hq
    | ok outcomes =>
      obtain rfl := Except.ok.inj hq
      obtain ⟨houtcomes, hlength, hfailures, hfailed⟩ := ih rfl
      exact ⟨congrArg (outcome :: ·) houtcomes, congrArg Nat.succ hlength, hfailures, hfailed⟩

theorem Ran.of_error {failure : HostError} (h : Ran inTransaction texts t (.error failure)) :
    t.outcomes.length ≠ texts.length ∧ t.failures = [failure] ∧ t.failed := by
  generalize hq : Except.error failure = q at h
  induction h generalizing failure with
  | nil => cases hq
  | failed text texts failure =>
    obtain rfl := Except.error.inj hq
    exact ⟨Nat.zero_ne_add_one _, rfl, rfl⟩
  | @cons texts t r text outcome _ ih =>
    cases r with
    | ok outcomes => cases hq
    | error failure =>
      obtain rfl := Except.error.inj hq
      obtain ⟨hlength, hfailures, hfailed⟩ := ih rfl
      exact ⟨fun h => hlength (Nat.succ.inj h), hfailures, hfailed⟩

/-- The calls are made in the order of the texts. -/
theorem Ran.map_call_prefix (h : Ran inTransaction texts t q) :
    t.map (·.call) <+: texts.map fun text => ⟨inTransaction, .execute text⟩ := by
  induction h with
  | nil => exact List.prefix_rfl
  | failed text texts failure => exact ⟨texts.map _, rfl⟩
  | cons text outcome _ ih => exact (List.prefix_cons_inj _).2 ih

/-- With outcomes, all texts ran. -/
theorem Ran.succeeded_of_ok {outcomes : List Outcome}
    (h : Ran inTransaction texts t (.ok outcomes)) :
    (t.map (·.call) = texts.map fun text => ⟨inTransaction, .execute text⟩) ∧
      ∀ x ∈ t, x.succeeded := by
  generalize hq : Except.ok outcomes = q at h
  induction h generalizing outcomes with
  | nil => exact ⟨rfl, nofun⟩
  | failed => cases hq
  | @cons texts t r text outcome _ ih =>
    cases r with
    | error failure => cases hq
    | ok outcomes =>
      obtain ⟨hcalls, hall⟩ := ih rfl
      exact ⟨congrArg (_ :: ·) hcalls, List.forall_mem_cons.2 ⟨rfl, hall⟩⟩

/-- The failure that is returned is a reply, and there is no other. -/
theorem Ran.failure_iff {failure : HostError} (h : Ran inTransaction texts t (.error failure))
    (other : HostError) : (∃ x ∈ t, x.failure? = some other) ↔ other = failure := by
  have hfailures : t.failures = [failure] := h.of_error.2.1
  rw [← List.mem_filterMap, ← List.mem_singleton, ← hfailures]
  rfl

/-- Texts that run do nothing about transactions. -/
structure Ran.Isolated (inTransaction : Bool) (texts : List String) (t : Transcript) : Prop where
  start : t.countOf .start = 0
  commit : t.countOf .commit = 0
  rollback : t.countOf .rollback = 0
  abandoned : t.abandoned = false
  opened : t.opened = false
  executed : t.executed = t
  calls : ∀ x ∈ t, x.call.inTransaction = inTransaction
  inOrder : t.texts <+: texts
  untilFailure : ∀ x ∈ t.dropLast, x.succeeded

theorem Ran.isolated (h : Ran inTransaction texts t q) : Ran.Isolated inTransaction texts t where
  start := h.countOf_eq_zero (by simp)
  commit := h.countOf_eq_zero (by simp)
  rollback := h.countOf_eq_zero (by simp)
  abandoned := h.abandoned_eq_false
  opened := h.opened_eq_false
  executed := h.executed_eq
  calls x hx := (h.calls x hx).1
  inOrder := h.texts_prefix
  untilFailure := h.succeeded_of_mem_dropLast

end Ran

/-- What is returned for texts that ran. -/
inductive Returned : Except HostError (List Outcome) → Except Error Outcome → Prop
  | ok {outcomes : List Outcome} {total : Outcome} : Outcome.IsTotal outcomes total →
    Returned (.ok outcomes) (.ok total)
  | error (failure : HostError) : Returned (.error failure) (.error (.host failure))

variable {conn : Connection σ}

theorem conforms_runText (before : Outcome) (text : String) :
    (runText conn.recorded before text).Conforms conn.host fun t r =>
      ∃ reply : Call.Reply ⟨conn.inTransaction, .execute text⟩,
        t = [⟨⟨conn.inTransaction, .execute text⟩, reply⟩] ∧
        match reply with
        | .error failure => r = .error (.error (.host failure))
        | .ok last => (∃ total, combine? before last = some total ∧ r = .ok total) ∨
          combine? before last = none ∧ r = .error (.defect .overflow) := by
  refine Session.Conforms.report_bind (Connection.conforms_perform_bind conn (fun last => ?_)
    fun failure => ⟨.error failure, rfl, rfl⟩)
  cases htotal : combine? before last with
  | some total => exact Session.conforms_pure ⟨.ok last, rfl, .inl ⟨total, htotal, rfl⟩⟩
  | none => exact Session.conforms_overflow ⟨.ok last, rfl, .inr ⟨htotal, rfl⟩⟩

/-- Texts run up to the first failure, unless the affected rows exceed 64 bits. The induction is on
the texts that are left, and `done` are the outcomes of those before. -/
theorem conforms_runTexts {texts : List String} {done : List Outcome} {before : Outcome}
    (hbefore : Outcome.IsTotal done before) :
    (texts.foldlM (runText conn.recorded) before).Conforms conn.host fun t r =>
      (r = .error (.defect .overflow) ∧ UInt64.size ≤ Outcome.totalRows (done ++ t.outcomes)) ∨
      ∃ q r', Ran conn.inTransaction texts t q ∧ Returned (q.map (done ++ ·)) r' ∧
        r = r'.mapError .error := by
  induction texts generalizing done before with
  | nil =>
    exact Session.conforms_pure (.inr ⟨_, .ok before, .nil, .ok (by simpa using hbefore), rfl⟩)
  | cons text texts ih =>
    rw [List.foldlM_cons]
    refine (conforms_runText before text).bind ?_ ?_
    · rintro t total ⟨reply, rfl, hreply⟩
      cases reply with
      | error failure => cases hreply
      | ok last =>
        obtain ⟨total', htotal, h⟩ | ⟨-, h⟩ := hreply
        · obtain rfl := Except.ok.inj h
          refine (ih (isTotal_of_combine? hbefore htotal)).mono ?_
          rintro t r (⟨rfl, hrows⟩ | ⟨q, r', hran, hreturned, rfl⟩)
          · rw [List.append_assoc] at hrows
            exact .inl ⟨rfl, hrows⟩
          · refine .inr ⟨_, r', hran.cons text last, ?_, rfl⟩
            cases q <;> simpa [Except.map] using hreturned
        · cases h
    · rintro t stop ⟨reply, rfl, hreply⟩
      cases reply with
      | error failure =>
        obtain rfl := Except.error.inj hreply
        exact .inr ⟨_, .error (.host failure), .failed text texts failure, .error failure, rfl⟩
      | ok last =>
        obtain ⟨total', htotal, h⟩ | ⟨htotal, h⟩ := hreply
        · cases h
        · obtain rfl := Except.error.inj h
          exact .inl ⟨rfl, le_totalRows_of_combine? hbefore htotal⟩

theorem conforms_runBatch (conn : Connection σ) (texts : List String) :
    (runBatch texts conn.recorded).Conforms conn.host fun t r =>
      (r = .error (.defect .overflow) ∧ UInt64.size ≤ Outcome.totalRows t.outcomes) ∨
      ∃ q r', Ran conn.inTransaction texts t q ∧ Returned q r' ∧ r = r'.mapError .error := by
  refine (conforms_runTexts Outcome.isTotal_nil).bind ?_ ?_
  · rintro t total (⟨h, -⟩ | ⟨q, r', hran, hreturned, h⟩)
    · cases h
    · refine (Session.conforms_pure (.inr ⟨q, r', ?_, ?_, ?_⟩)).report_bind
      · rwa [List.append_nil]
      · cases q <;> simpa [Except.map] using hreturned
      · exact h
  · rintro t stop (⟨h, hrows⟩ | ⟨q, r', hran, hreturned, h⟩)
    · exact .inl ⟨h, by simpa using hrows⟩
    · refine .inr ⟨q, r', hran, ?_, h⟩
      cases q <;> simpa [Except.map] using hreturned

/-- A single text cannot exceed anything. -/
theorem combine?_empty (last : Outcome) : combine? {} last = some last := by
  have hsmall : (0 : UInt64).toNat + last.rowsAffected.toNat < UInt64.size := by
    simpa using last.rowsAffected.toNat_lt
  rw [combine?, if_pos hsmall]
  simp

/-- What comes behind a statement of a single text. -/
theorem conforms_execute_single_bind (conn : Connection σ) {α : Type} {sql : Sql}
    {f : Outcome → Session _ Error α} {Q : Transcript → Except (Stop Error) α → Prop}
    (hok : ∀ outcome, (f outcome).Conforms conn.host fun t r =>
      Q (⟨⟨conn.inTransaction, .execute sql.text⟩, .ok outcome⟩ :: t) r)
    (herror : ∀ failure, Q [⟨⟨conn.inTransaction, .execute sql.text⟩, .error failure⟩]
      (.error (.error (.host failure)))) :
    ((⟨[sql]⟩ : Statement).execute conn.recorded >>= f).Conforms conn.host Q := by
  have hone : (⟨[sql]⟩ : Statement).execute conn.recorded =
      runBatch [sql.text] conn.recorded := rfl
  rw [hone, runBatch, List.foldlM_cons]
  simp only [bind_assoc, runText]
  refine Session.Conforms.report_bind (Connection.conforms_perform_bind conn (fun last => ?_)
    herror)
  rw [combine?_empty]
  simp only [List.foldlM_nil, pure_bind]
  exact (hok last).report_bind

/-! ### The protocol -/

/-- The calls of a statement with its result. `outside` tells whether the connection that the
statement is given is inside a transaction already. -/
inductive Protocol (outside : Bool) (texts : List String) :
    Transcript → Except Error Outcome → Prop
  /-- A single text runs on the connection, and so does nothing at all. -/
  | single {t : Transcript} {q : Except HostError (List Outcome)} {r : Except Error Outcome} :
    texts.length < 2 → Ran outside texts t q → Returned q r → Protocol outside texts t r
  /-- Without transactions, several texts run on the connection too. -/
  | direct {t : Transcript} {q : Except HostError (List Outcome)} {r : Except Error Outcome}
    (reason : String) : 2 ≤ texts.length → Ran outside texts t q → Returned q r →
    Protocol outside texts (⟨⟨outside, .start⟩, .error (.notAvailable reason)⟩ :: t) r
  /-- If the transaction cannot be opened for another reason, nothing runs. -/
  | refused (failure : HostError) : 2 ≤ texts.length →
    (∀ reason, failure ≠ .notAvailable reason) →
    Protocol outside texts [⟨⟨outside, .start⟩, .error failure⟩] (.error (.host failure))
  | committed {t : Transcript} {outcomes : List Outcome} {total : Outcome} :
    2 ≤ texts.length → Ran true texts t (.ok outcomes) → Outcome.IsTotal outcomes total →
    Protocol outside texts
      (⟨⟨outside, .start⟩, .ok ()⟩ :: t ++ [⟨⟨true, .commit⟩, .ok ()⟩]) (.ok total)
  | notCommitted {t : Transcript} {outcomes : List Outcome} (failure : HostError) :
    2 ≤ texts.length → Ran true texts t (.ok outcomes) →
    Protocol outside texts
      (⟨⟨outside, .start⟩, .ok ()⟩ :: t ++ [⟨⟨true, .commit⟩, .error failure⟩])
      (.error (.host failure))
  | rolledBack {t : Transcript} {failure : HostError} :
    2 ≤ texts.length → Ran true texts t (.error failure) →
    Protocol outside texts
      (⟨⟨outside, .start⟩, .ok ()⟩ :: t ++ [⟨⟨true, .rollback⟩, .ok ()⟩]) (.error (.host failure))
  /-- The failure of the rollback takes the place of the failure of the text. -/
  | notRolledBack {t : Transcript} {failure : HostError} (last : HostError) :
    2 ≤ texts.length → Ran true texts t (.error failure) →
    Protocol outside texts
      (⟨⟨outside, .start⟩, .ok ()⟩ :: t ++ [⟨⟨true, .rollback⟩, .error last⟩])
      (.error (.host last))

theorem Protocol.of_ended (outside : Bool) {texts : List String} {t : Transcript}
    {r : Except (Stop Error) Outcome} (hseveral : 2 ≤ texts.length)
    (h : Ended (fun t r =>
      (r = .error (.defect .overflow) ∧ UInt64.size ≤ Outcome.totalRows t.outcomes) ∨
      ∃ q r', Ran true texts t q ∧ Returned q r' ∧ r = r'.mapError .error) t r) :
    (r = .error (.defect .overflow) ∧ UInt64.size ≤ Outcome.totalRows t.outcomes) ∨
      ∃ r', Protocol outside texts (⟨⟨outside, .start⟩, .ok ()⟩ :: t) r' ∧
        r = r'.mapError .error := by
  cases h with
  | committed h =>
    obtain ⟨h, -⟩ | ⟨q, r', hran, hreturned, h⟩ := h
    · cases h
    · cases hreturned with
      | ok htotal => exact .inr ⟨_, .committed hseveral hran htotal, h⟩
      | error failure => cases h
  | notCommitted failure h =>
    obtain ⟨h, -⟩ | ⟨q, r', hran, hreturned, h⟩ := h
    · cases h
    · cases hreturned with
      | ok htotal => exact .inr ⟨_, .notCommitted failure hseveral hran, rfl⟩
      | error failure => cases h
  | rolledBack h =>
    obtain ⟨h, -⟩ | ⟨q, r', hran, hreturned, h⟩ := h
    · cases h
    · cases hreturned with
      | ok htotal => cases h
      | error failure => exact .inr ⟨_, .rolledBack hseveral hran, h⟩
  | notRolledBack last h =>
    obtain ⟨h, -⟩ | ⟨q, r', hran, hreturned, h⟩ := h
    · cases h
    · cases hreturned with
      | ok htotal => cases h
      | error failure => exact .inr ⟨_, .notRolledBack last hseveral hran, rfl⟩
  | defect h =>
    obtain h | ⟨q, r', hran, hreturned, h⟩ := h
    · exact .inl h
    · cases r' <;> cases h

/-- What the protocol amounts to. -/
structure Protocol.Laws (outside : Bool) (texts : List String) (t : Transcript)
    (r : Except Error Outcome) : Prop where
  /-- Only several texts need a transaction, and they ask for it once. -/
  starts : t.countOf .start = if texts.length < 2 then 0 else 1
  inOrder : t.texts <+: texts
  /-- Nothing runs behind a failure. -/
  untilFailure : ∀ x ∈ t.executed.dropLast, x.succeeded
  /-- If a transaction was opened, everything runs inside. -/
  through : ∀ x ∈ t.executed, x.call.inTransaction = (outside || t.opened)
  commits : t.countOf .commit =
    if t.opened ∧ t.outcomes.length = texts.length then 1 else 0
  rollbacks : t.countOf .rollback = if t.opened ∧ t.failed then 1 else 0
  /-- The result is an outcome if all texts ran and were committed where they had to be. -/
  ok : ∀ total, r = .ok total ↔ t.outcomes.length = texts.length ∧ t.abandoned = false ∧
    Outcome.IsTotal t.outcomes total
  /-- An error is the last thing that went wrong. -/
  error : ∀ cause, r = .error cause →
    ∃ failure, t.failures.getLast? = some failure ∧ cause = .host failure

theorem Protocol.laws {outside : Bool} {texts : List String} {t : Transcript}
    {r : Except Error Outcome} (h : Protocol outside texts t r) :
    Protocol.Laws outside texts t r := by
  cases h with
  | @single t q r hlength hran hreturned =>
    obtain ⟨hstart, hcommit, hrollback, hkept, hopened, hexecuted, hcalls, hinOrder, huntil⟩ :=
      hran.isolated
    cases hreturned with
    | ok htotal =>
      obtain ⟨rfl, hlength', hfailures, hfailed⟩ := hran.of_ok
      constructor <;> simp [htotal.iff_eq, *] <;> assumption
    | error failure =>
      obtain ⟨hlength', hfailures, hfailed⟩ := hran.of_error
      constructor <;> simp [*] <;> assumption
  | direct reason hlength hran hreturned =>
    obtain ⟨hstart, hcommit, hrollback, hkept, hopened, hexecuted, hcalls, hinOrder, huntil⟩ :=
      hran.isolated
    cases hreturned with
    | ok htotal =>
      obtain ⟨rfl, hlength', hfailures, hfailed⟩ := hran.of_ok
      constructor <;> simp [htotal.iff_eq, *] <;> assumption
    | error failure =>
      obtain ⟨hlength', hfailures, hfailed⟩ := hran.of_error
      constructor <;> simp [*] <;> assumption
  | refused failure hlength hfailure =>
    have hlength' : 0 ≠ texts.length := by omega
    have hsome : 1 < texts.length := hlength
    constructor <;> simp [*]
  | committed hlength hran htotal =>
    obtain ⟨hstart, hcommit, hrollback, hkept, hopened, hexecuted, hcalls, hinOrder, huntil⟩ :=
      hran.isolated
    obtain ⟨rfl, hlength', hfailures, hfailed⟩ := hran.of_ok
    constructor <;> simp [htotal.iff_eq, *] <;> assumption
  | notCommitted failure hlength hran =>
    obtain ⟨hstart, hcommit, hrollback, hkept, hopened, hexecuted, hcalls, hinOrder, huntil⟩ :=
      hran.isolated
    obtain ⟨rfl, hlength', hfailures, hfailed⟩ := hran.of_ok
    constructor <;> simp [*] <;> assumption
  | rolledBack hlength hran =>
    obtain ⟨hstart, hcommit, hrollback, hkept, hopened, hexecuted, hcalls, hinOrder, huntil⟩ :=
      hran.isolated
    obtain ⟨hlength', hfailures, hfailed⟩ := hran.of_error
    constructor <;> simp [*] <;> assumption
  | notRolledBack last hlength hran =>
    obtain ⟨hstart, hcommit, hrollback, hkept, hopened, hexecuted, hcalls, hinOrder, huntil⟩ :=
      hran.isolated
    obtain ⟨hlength', hfailures, hfailed⟩ := hran.of_error
    constructor <;> simp [*] <;> assumption

/-- A statement keeps to the protocol, unless its affected rows exceed 64 bits. -/
theorem conforms_execute (s : Statement) (conn : Connection σ) :
    (s.execute conn.recorded).Conforms conn.host fun t r =>
      (r = .error (.defect .overflow) ∧ UInt64.size ≤ Outcome.totalRows t.outcomes) ∨
      ∃ r', Protocol conn.inTransaction s.texts t r' ∧ r = r'.mapError .error := by
  rw [execute]
  split
  · rename_i hlength
    refine (conforms_runBatch conn s.texts).mono ?_
    rintro t r (h | ⟨q, r', hran, hreturned, rfl⟩)
    · exact .inl h
    · exact .inr ⟨r', .single hlength hran hreturned, rfl⟩
  rename_i hlength
  have hseveral : 2 ≤ s.texts.length := Nat.le_of_not_lt hlength
  refine Connection.conforms_attempt_ask_bind conn fun reply => ?_
  cases reply with
  | ok =>
    refine (Connection.conforms_finish conn .terse
      (conforms_runBatch conn.inside s.texts)).mono ?_
    rintro t r hended
    obtain ⟨rfl, hrows⟩ | ⟨r', hprotocol, rfl⟩ :=
      Protocol.of_ended conn.inTransaction hseveral hended
    · exact .inl ⟨rfl, hrows⟩
    · exact .inr ⟨r', hprotocol, rfl⟩
  | error failure =>
    cases failure with
    | notAvailable reason =>
      refine ((conforms_runBatch conn s.texts).mono ?_).report_bind
      rintro t r (h | ⟨q, r', hran, hreturned, rfl⟩)
      · exact .inl h
      · exact .inr ⟨r', .direct reason hseveral hran hreturned, rfl⟩
    | _ => exact Session.conforms_fail (.inr ⟨_, .refused _ hseveral (by rintro reason ⟨⟩), rfl⟩)

/-- Whatever the host replies, a statement makes the calls of the protocol and returns what goes
with them, as long as the affected rows fit into 64 bits. -/
theorem execute_follows_protocol (s : Statement) (conn : Connection σ)
    (w : World (σ × Transcript)) :
    ∃ t, ((s.execute conn.recorded).run.run w).2.host.2 = w.host.2 ++ t ∧
      (Outcome.totalRows t.outcomes < UInt64.size →
        ∃ r, ((s.execute conn.recorded).run.run w).1 = r.mapError .error ∧
          Protocol conn.inTransaction s.texts t r ∧
          Protocol.Laws conn.inTransaction s.texts t r) := by
  obtain ⟨t, ht, -, h⟩ := s.conforms_execute conn w
  refine ⟨t, ht, fun hrows => ?_⟩
  obtain ⟨-, hoverflow⟩ | ⟨r, hprotocol, hr⟩ := h
  · exact absurd hoverflow (Nat.not_le.2 hrows)
  · exact ⟨r, hr, hprotocol, hprotocol.laws⟩

end Statement

end Discography
