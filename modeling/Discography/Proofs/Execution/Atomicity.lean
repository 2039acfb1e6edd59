import Discography.Proofs.Execution.Batch

/-!
# What transactions do to data

A host with transactions keeps data that change when a transaction is committed, and at no other
time. Inside a transaction, the data are changed by the statements that run there, one after the
other. So a transaction has the effect of all of its statements, or none at all.

## Main definitions

* `Host.ChangesByCommit`: nothing but a commit changes the data
* `Host.TracksPending`: what statements of a transaction do
* `Applied`: the effect of statements one after the other
* `Atomic`: a run that has the effect of all of its statements or none

## Main results

* `Host.Gives.committed_eq`: without a commit the data stay as they are
* `Host.Gives.applied`: a committed transaction has the effect of its statements
* `Bracketed.atomic`: transactions are atomic
-/

namespace Discography

variable {σ δ α : Type}

/-! ### Transcripts of transactions -/

namespace Exchange

/-- Whether a transaction was committed. -/
@[simp] def commits : Exchange → Bool
  | ⟨⟨_, .commit⟩, .ok ()⟩ => true
  | _ => false

/-- Whether the host was asked to read or to write, inside a transaction. -/
def isWork (x : Exchange) : Bool :=
  x.call.inTransaction && match x.call.request with
    | .execute _ | .query _ => true
    | .start | .commit | .rollback => false

/-- The rows that were read. -/
@[simp] def rows? : Exchange → Option (List Row)
  | ⟨⟨_, .query _⟩, .ok rows⟩ => some rows
  | _ => none

end Exchange

namespace Transcript

/-- Whether a transaction was committed. -/
def committed (t : Transcript) : Bool := t.any Exchange.commits

/-- The answers to the queries, in order. -/
def answers (t : Transcript) : List (List Row) := t.filterMap Exchange.rows?

section

variable (x : Exchange) (t t' : Transcript)

@[simp] theorem committed_nil : committed [] = false := rfl

@[simp] theorem committed_cons : committed (x :: t) = (x.commits || t.committed) := rfl

@[simp] theorem committed_append : committed (t ++ t') = (t.committed || t'.committed) :=
  List.any_append

@[simp] theorem answers_nil : answers [] = [] := rfl

@[simp] theorem answers_cons : answers (x :: t) = x.rows?.toList ++ t.answers := by
  rw [answers, List.filterMap_cons]
  cases x.rows? <;> rfl

@[simp] theorem answers_append : answers (t ++ t') = t.answers ++ t'.answers :=
  List.filterMap_append ..

end

end Transcript

/-! ### Hosts with transactions -/

namespace Host

/-- Only a commit that succeeds changes the committed data. -/
structure ChangesByCommit (h : Host σ) (committed : σ → δ) : Prop where
  answer : ∀ (c : Call) (s : σ), (Exchange.commits ⟨c, (h.answer c s).1⟩) = false →
    committed (h.answer c s).2 = committed s
  now : ∀ s, committed (h.ids.now s).2 = committed s
  noise : ∀ s, committed (h.ids.noise s).2 = committed s

/-- A transaction begins with the committed data, the statements that succeed change them inside,
and a commit makes them the committed ones. -/
structure TracksPending (h : Host σ) (committed pending : σ → δ) (applies : String → δ → δ → Prop) :
    Prop where
  start : ∀ (inTransaction : Bool) (s : σ), (h.answer ⟨inTransaction, .start⟩ s).1 = .ok () →
    pending (h.answer ⟨inTransaction, .start⟩ s).2 = committed s
  execute : ∀ (text : String) (outcome : Outcome) (s : σ),
    (h.answer ⟨true, .execute text⟩ s).1 = .ok outcome →
      applies text (pending s) (pending (h.answer ⟨true, .execute text⟩ s).2)
  query : ∀ (text : String) (s : σ), pending (h.answer ⟨true, .query text⟩ s).2 = pending s
  commit : ∀ s, (h.answer ⟨true, .commit⟩ s).1 = .ok () →
    committed (h.answer ⟨true, .commit⟩ s).2 = pending s
  now : ∀ s, pending (h.ids.now s).2 = pending s
  noise : ∀ s, pending (h.ids.noise s).2 = pending s

end Host

/-- The effect of statements that run one after the other. -/
inductive Applied (applies : String → δ → δ → Prop) : List String → δ → δ → Prop
  | nil (d : δ) : Applied applies [] d d
  | cons {text : String} {texts : List String} {d d' d'' : δ} : applies text d d' →
    Applied applies texts d' d'' → Applied applies (text :: texts) d d''

namespace Host

variable {h : Host σ} {s s' : σ} {t t' : Transcript}

/-- Before the next call, the host may have been asked for the time and for random bytes. -/
theorem Gives.of_cons {c : Call} {reply : c.Reply} (hgives : h.Gives s (⟨c, reply⟩ :: t) s') :
    ∃ s₁, h.Gives s [] s₁ ∧ (h.answer c s₁).1 = reply ∧ h.Gives (h.answer c s₁).2 t s' := by
  generalize ht : (⟨c, reply⟩ : Exchange) :: t = t' at hgives
  induction hgives with
  | nil => cases ht
  | call c' hrest _ =>
    cases ht
    exact ⟨_, .nil _, rfl, hrest⟩
  | now _ ih =>
    obtain ⟨s₁, hidle, hreply, hrest⟩ := ih ht
    exact ⟨s₁, .now hidle, hreply, hrest⟩
  | noise _ ih =>
    obtain ⟨s₁, hidle, hreply, hrest⟩ := ih ht
    exact ⟨s₁, .noise hidle, hreply, hrest⟩

theorem Gives.of_append (hgives : h.Gives s (t ++ t') s') :
    ∃ s₁, h.Gives s t s₁ ∧ h.Gives s₁ t' s' := by
  induction t generalizing s with
  | nil => exact ⟨s, .nil s, hgives⟩
  | cons x t ih =>
    obtain ⟨c, reply⟩ := x
    obtain ⟨s₁, hidle, rfl, hrest⟩ := Gives.of_cons hgives
    obtain ⟨s₂, hfront, hbehind⟩ := ih hrest
    exact ⟨s₂, hidle.append (.call c hfront), hbehind⟩

/-- Without a commit, the committed data stay as they are. -/
theorem Gives.committed_eq {committed : σ → δ} (hcommit : h.ChangesByCommit committed)
    (hgives : h.Gives s t s') (ht : t.committed = false) : committed s' = committed s := by
  induction hgives with
  | nil => rfl
  | call c _ ih =>
    rw [Transcript.committed_cons, Bool.or_eq_false_iff] at ht
    rw [ih ht.2, hcommit.answer c _ ht.1]
  | now _ ih => rw [ih ht, hcommit.now]
  | noise _ ih => rw [ih ht, hcommit.noise]

section pending

variable {committed pending : σ → δ} {applies : String → δ → δ → Prop}

/-- Inside a transaction, the statements have their effects one after the other. -/
theorem Gives.pending_applied (hpending : h.TracksPending committed pending applies)
    (hgives : h.Gives s t s') (hwork : ∀ x ∈ t, x.isWork) (ht : t.failures = []) :
    Applied applies t.texts (pending s) (pending s') := by
  induction hgives with
  | nil => exact .nil _
  | @call s s' t c _ ih =>
    obtain ⟨hx, hwork⟩ := List.forall_mem_cons.1 hwork
    rw [Transcript.failures_cons, List.append_eq_nil_iff] at ht
    have hrest := ih hwork ht.2
    have hreply := ht.1
    obtain ⟨inTransaction, request⟩ := c
    obtain ⟨hinside, hrequest⟩ := Bool.and_eq_true_iff.1 hx
    obtain rfl : inTransaction = true := hinside
    cases request with
    | execute text =>
      cases hanswer : (h.answer ⟨true, .execute text⟩ s).1 with
      | ok outcome => exact .cons (hpending.execute text outcome s hanswer) hrest
      | error failure => simp [hanswer] at hreply
    | query text =>
      rw [hpending.query] at hrest
      exact hrest
    | start | commit | rollback => cases hrequest
  | now _ ih =>
    rw [← hpending.now]
    exact ih hwork ht
  | noise _ ih =>
    rw [← hpending.noise]
    exact ih hwork ht

theorem Gives.pending_eq (hpending : h.TracksPending committed pending applies)
    (hgives : h.Gives s [] s') : pending s' = pending s := by
  generalize ht : ([] : Transcript) = t at hgives
  induction hgives with
  | nil => rfl
  | call => cases ht
  | now _ ih => rw [ih ht, hpending.now]
  | noise _ ih => rw [ih ht, hpending.noise]

/-- A transaction that is committed has the effect of its statements. -/
theorem Gives.applied (hcommit : h.ChangesByCommit committed)
    (hpending : h.TracksPending committed pending applies) {outside : Bool}
    (hgives : h.Gives s (⟨⟨outside, .start⟩, .ok ()⟩ :: t ++ [⟨⟨true, .commit⟩, .ok ()⟩]) s')
    (hwork : ∀ x ∈ t, x.isWork) (ht : t.failures = []) :
    Applied applies t.texts (committed s) (committed s') := by
  obtain ⟨s₁, hidle₁, hstart, hgives⟩ := Gives.of_cons hgives
  obtain ⟨s₂, hgives, hend⟩ := Gives.of_append hgives
  obtain ⟨s₃, hidle₃, hend, hidle₄⟩ := Gives.of_cons hend
  have happlied := hgives.pending_applied hpending hwork ht
  rw [hpending.start outside s₁ hstart, hidle₁.committed_eq hcommit rfl] at happlied
  rw [hidle₄.committed_eq hcommit rfl, hpending.commit s₃ hend, hidle₃.pending_eq hpending]
  exact happlied

end pending

end Host

/-! ### Atomic runs -/

/-- What a body does in a transaction: it reads and writes, and returns a result if all of that
succeeds and the answers are acceptable. -/
structure Worked (accepts : List Outcome → List (List Row) → Prop) (t : Transcript)
    (r : Except (Stop Error) α) : Prop where
  work : ∀ x ∈ t, x.isWork
  notDefect : ∀ cause, r ≠ .error (.defect cause)
  ok_iff : (∃ a, r = .ok a) ↔ t.failures = [] ∧ accepts t.outcomes t.answers

/-- A run that has the effect of all of its statements if it returns a result, and none if it ends
with an error. -/
structure Atomic (h : Host σ) (committed : σ → δ) (outside : Bool)
    (accepts : List Outcome → List (List Row) → Prop) (s s' : σ) (t : Transcript)
    (r : Except (Stop Error) α) : Prop where
  /-- There is one transaction at most, it comes first, and it is ended at the very end. -/
  bracket : t = [] ∨ (∃ failure, t = [⟨⟨outside, .start⟩, .error failure⟩]) ∨
    ∃ work last, t = ⟨⟨outside, .start⟩, .ok ()⟩ :: work ++ [last] ∧ (∀ x ∈ work, x.isWork) ∧
      (last.call = ⟨true, .commit⟩ ∨ last.call = ⟨true, .rollback⟩)
  notDefect : ∀ cause, r ≠ .error (.defect cause)
  ok_iff : (∃ a, r = .ok a) ↔ t ≠ [] ∧ t.failures = [] ∧ accepts t.outcomes t.answers
  ok_iff_committed : (∃ a, r = .ok a) ↔ t.committed
  unchanged : ∀ stop, r = .error stop → committed s' = committed s
  applied : ∀ (pending : σ → δ) (applies : String → δ → δ → Prop),
    h.TracksPending committed pending applies → ∀ a, r = .ok a →
      Applied applies t.texts (committed s) (committed s')

theorem Exchange.commits_eq_false_of_isWork {x : Exchange} (hx : x.isWork) : x.commits = false := by
  obtain ⟨⟨inTransaction, request⟩, reply⟩ := x
  cases request with
  | execute | query | start | rollback => rfl
  | commit => simp [isWork] at hx

theorem Transcript.committed_eq_false_of_isWork {t : Transcript} (ht : ∀ x ∈ t, x.isWork) :
    t.committed = false := by
  refine List.any_eq_false.2 fun x hx => ?_
  rw [Exchange.commits_eq_false_of_isWork (ht x hx)]
  exact Bool.false_ne_true

section

variable {h : Host σ} {committed : σ → δ} {outside : Bool} {s s' : σ} {t : Transcript}
  {accepts : List Outcome → List (List Row) → Prop} {r : Except (Stop Error) α}

/-- A run that ends with an error, because something failed or was not accepted, is atomic if it
commits nothing. -/
theorem atomic_of_error (hcommit : h.ChangesByCommit committed) (hgives : h.Gives s t s')
    (hnot : t.committed = false)
    (hbracket : t = [] ∨ (∃ failure, t = [⟨⟨outside, .start⟩, .error failure⟩]) ∨
      ∃ work last, t = ⟨⟨outside, .start⟩, .ok ()⟩ :: work ++ [last] ∧ (∀ x ∈ work, x.isWork) ∧
        (last.call = ⟨true, .commit⟩ ∨ last.call = ⟨true, .rollback⟩))
    (hfails : ¬(t ≠ [] ∧ t.failures = [] ∧ accepts t.outcomes t.answers)) (cause : Error) :
    Atomic h committed outside accepts s s' t (.error (.error cause) : Except (Stop Error) α) where
  bracket := hbracket
  notDefect := by simp
  ok_iff := by simpa using hfails
  ok_iff_committed := by simp [hnot]
  unchanged _ _ := hgives.committed_eq hcommit hnot
  applied := by simp

/-- What is refused before the host is asked for anything has no effect. -/
theorem atomic_nil (hcommit : h.ChangesByCommit committed) (hgives : h.Gives s [] s')
    (cause : Error) :
    Atomic h committed outside accepts s s' []
      (.error (.error cause) : Except (Stop Error) α) :=
  atomic_of_error hcommit hgives rfl (.inl rfl) (by simp) cause

/-- What is made of the result does not matter. -/
theorem Atomic.map {β : Type} (f : α → β)
    (ha : Atomic h committed outside accepts s s' t r) :
    Atomic h committed outside accepts s s' t (r.map f) := by
  obtain ⟨hbracket, hdefect, hok, hcommitted, hunchanged, happlied⟩ := ha
  cases r with
  | ok a =>
    have hsome : ∀ {b : Except (Stop Error) β}, b = .ok (f a) →
        ((∃ a', b = .ok a') ↔ ∃ a', (Except.ok a : Except (Stop Error) α) = .ok a') := by
      rintro b rfl
      exact ⟨fun _ => ⟨a, rfl⟩, fun _ => ⟨f a, rfl⟩⟩
    exact ⟨hbracket, nofun, (hsome rfl).trans hok, (hsome rfl).trans hcommitted, nofun,
      fun pending applies hpending _ _ => happlied pending applies hpending a rfl⟩
  | error stop =>
    have hnone : (∃ b, (Except.error stop : Except (Stop Error) β) = .ok b) ↔
        ∃ a, (Except.error stop : Except (Stop Error) α) = .ok a := by simp
    exact ⟨hbracket, fun cause hcause => hdefect cause (by cases hcause; rfl),
      hnone.trans hok, hnone.trans hcommitted, fun _ _ => hunchanged stop rfl, nofun⟩

/-- A transaction takes effect as a whole or not at all. -/
theorem Bracketed.atomic {P : Transcript → Except (Stop Error) α → Prop}
    (hP : ∀ t r, P t r → Worked accepts t r) (hcommit : h.ChangesByCommit committed)
    (hb : Bracketed outside P t r) (hgives : h.Gives s t s') :
    Atomic h committed outside accepts s s' t r := by
  cases hb with
  | notStarted failure =>
    exact atomic_of_error hcommit hgives rfl (.inr (.inl ⟨failure, rfl⟩)) (by simp) _
  | started hended =>
    cases hended with
    | @committed t a hbody =>
      obtain ⟨hwork, -, hok⟩ := hP _ _ hbody
      obtain ⟨hfailures, haccepts⟩ := hok.1 ⟨a, rfl⟩
      exact
        { bracket := .inr (.inr ⟨t, _, rfl, hwork, .inl rfl⟩)
          notDefect := by simp
          ok_iff := by simp [hfailures, haccepts]
          ok_iff_committed := by simp
          unchanged := by simp
          applied := fun pending applies hpending _ _ => by
            simpa using hgives.applied hcommit hpending hwork hfailures }
    | @notCommitted t a failure hbody =>
      obtain ⟨hwork, -, -⟩ := hP _ _ hbody
      have hnot := Transcript.committed_eq_false_of_isWork hwork
      exact atomic_of_error hcommit hgives (by simp [hnot])
        (.inr (.inr ⟨t, _, rfl, hwork, .inl rfl⟩)) (by simp) _
    | @rolledBack t cause hbody =>
      obtain ⟨hwork, -, hok⟩ := hP _ _ hbody
      have hnot := Transcript.committed_eq_false_of_isWork hwork
      exact atomic_of_error hcommit hgives (by simp [hnot])
        (.inr (.inr ⟨t, _, rfl, hwork, .inr rfl⟩)) (by simpa using hok) _
    | @notRolledBack t cause failure hbody =>
      obtain ⟨hwork, -, -⟩ := hP _ _ hbody
      have hnot := Transcript.committed_eq_false_of_isWork hwork
      exact atomic_of_error hcommit hgives (by simp [hnot])
        (.inr (.inr ⟨t, _, rfl, hwork, .inr rfl⟩)) (by simp) _
    | @defect t cause hbody => exact absurd rfl ((hP _ _ hbody).notDefect cause)

end

end Discography
