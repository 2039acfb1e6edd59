import Discography.Execution.Transaction
import Discography.Proofs.Execution.Transcript

/-!
# Transactions are ended

Behind the calls of its body, an open transaction is committed or rolled back, whatever the host
replies. The end decides about the result: a body that succeeded may still fail to be committed, and
the failure of a rollback takes the place of the failure of the body.

## Main definitions

* `Ended`: the calls and the result of an open transaction
* `Bracketed`: the same with the call that opens it

## Main results

* `Connection.conforms_finish`, `Connection.conforms_transaction`
-/

namespace Discography

variable {σ α : Type}

/-- The calls of an open transaction and its result, for a body with the given calls and results. -/
inductive Ended (P : Transcript → Except (Stop Error) α → Prop) :
    Transcript → Except (Stop Error) α → Prop
  | committed {t : Transcript} {a : α} : P t (.ok a) →
    Ended P (t ++ [⟨⟨true, .commit⟩, .ok ()⟩]) (.ok a)
  | notCommitted {t : Transcript} {a : α} (failure : HostError) : P t (.ok a) →
    Ended P (t ++ [⟨⟨true, .commit⟩, .error failure⟩]) (.error (.error (.host failure)))
  | rolledBack {t : Transcript} {cause : Error} : P t (.error (.error cause)) →
    Ended P (t ++ [⟨⟨true, .rollback⟩, .ok ()⟩]) (.error (.error cause))
  /-- The cause of the rollback is lost. -/
  | notRolledBack {t : Transcript} {cause : Error} (failure : HostError) :
    P t (.error (.error cause)) →
    Ended P (t ++ [⟨⟨true, .rollback⟩, .error failure⟩]) (.error (.error (.host failure)))
  /-- What nobody handles is not handled here either. -/
  | defect {t : Transcript} {cause : Defect} : P t (.error (.defect cause)) →
    Ended P t (.error (.defect cause))

/-- The calls of a transaction and its result, for a body with the given calls and results. -/
inductive Bracketed (outside : Bool) (P : Transcript → Except (Stop Error) α → Prop) :
    Transcript → Except (Stop Error) α → Prop
  | notStarted (failure : HostError) :
    Bracketed outside P [⟨⟨outside, .start⟩, .error failure⟩] (.error (.error (.host failure)))
  | started {t : Transcript} {r : Except (Stop Error) α} : Ended P t r →
    Bracketed outside P (⟨⟨outside, .start⟩, .ok ()⟩ :: t) r

namespace Connection

variable (conn : Connection σ) {P : Transcript → Except (Stop Error) α → Prop}
  {body : Connection (σ × Transcript) → Session (σ × Transcript) Error α}

theorem conforms_finish (n : Narration)
    (hbody : (body conn.inside.recorded).Conforms conn.host P) :
    (conn.recorded.finish n body).Conforms conn.host (Ended P) := by
  refine Session.Conforms.bind (P := fun t (r : Except (Stop Error) (Except Error α)) =>
    ∃ r', P t r' ∧ r = Session.settled r') (hbody.attempt fun t r hP => ⟨r, hP, rfl⟩) ?_ ?_
  · rintro t a ⟨r, hP, hr⟩
    cases r with
    | ok a =>
      obtain rfl := Except.ok.inj hr
      refine conforms_perform_bind conn.inside (fun _ => ?_) fun failure => ?_
      · exact (Session.conforms_pure (.committed hP)).reportAll_bind
      · exact .notCommitted failure hP
    | error stop =>
      cases stop with
      | defect cause => cases hr
      | error cause =>
        obtain rfl := Except.ok.inj hr
        refine conforms_attempt_ask_bind conn.inside fun reply => ?_
        cases reply with
        | ok => exact (Session.conforms_fail (.rolledBack hP)).reportAll_bind
        | error failure => exact (Session.conforms_fail (.notRolledBack failure hP)).report_bind
  · rintro t stop ⟨r, hP, hr⟩
    cases r with
    | ok a => cases hr
    | error stop =>
      cases stop with
      | error cause => cases hr
      | defect cause =>
        obtain rfl := Except.error.inj hr
        exact .defect hP

theorem conforms_transaction (hbody : (body conn.inside.recorded).Conforms conn.host P) :
    (conn.recorded.transaction body).Conforms conn.host (Bracketed conn.inTransaction P) := by
  refine conforms_perform_bind conn (fun _ => ?_) fun failure => .notStarted failure
  exact ((conforms_finish conn .full hbody).mono fun _ _ => .started).reportAll_bind

end Connection

end Discography
