import Discography.Host.Basic
import Discography.Log.Subscriber

/-!
# Sessions

What the library does with a host is a session: a computation that makes calls, draws identifiers
and reports events, and ends with a result or an error. What it did up to an error remains done.

A session also ends with a defect, which is no error, and which no part of the library handles: the
rows affected by several statements exceed 64 bits, or a part of a log filter would begin or end
inside a character.

## Main definitions

* `World`: the states of the host, the generator and the log
* `Session`: the type
* `Session.attempt`: a session with its error as result
* `Connection`: a host, seen from inside a transaction or from outside
-/

namespace Discography

/-- What sessions act on. -/
structure World (σ : Type) where
  host : σ
  /-- What the generator of identifiers remembers. -/
  stamp : Option Identifier.Stamp := none
  log : Log.State := {}

/-- What ends a session and is not handled. -/
inductive Defect where
  /-- A count exceeded 64 bits. -/
  | overflow
  /-- A part of a text would begin or end inside a character. -/
  | split (cause : Text.SplitError)
  deriving DecidableEq

/-- The wording of the defect. -/
def Defect.message : Defect → String
  | overflow => "attempt to add with overflow"
  | split cause => cause.message

/-- Why a session ended without a result. -/
inductive Stop (ε : Type) where
  | error (cause : ε)
  | defect (cause : Defect)

/-- A computation over a host with states `σ` that fails with errors `ε`. -/
abbrev Session (σ ε : Type) := ExceptT (Stop ε) (StateM (World σ))

namespace Session

variable {σ ε δ α : Type}

/-- Ends with an error. -/
def fail (cause : ε) : Session σ ε α := throw (.error cause)

/-- Ends because a count exceeds 64 bits. -/
def overflow : Session σ ε α := throw (.defect .overflow)

/-- Continues with a result, or ends with an error. -/
def ofExcept : Except ε α → Session σ ε α
  | .ok a => pure a
  | .error cause => fail cause

/-- Turns the end of a session into a result; a defect remains one. -/
def settled : Except (Stop ε) α → Except (Stop δ) (Except ε α)
  | .ok a => .ok (.ok a)
  | .error (.error cause) => .ok (.error cause)
  | .error (.defect cause) => .error (.defect cause)

/-- The session with its error as a result. -/
def attempt (s : Session σ ε α) : Session σ δ (Except ε α) :=
  ExceptT.mk (settled <$> s.run)

/-- The session with another form of its errors. -/
def mapError (f : ε → δ) (s : Session σ ε α) : Session σ δ α := do
  ofExcept ((← s.attempt).mapError f)

/-- Reports an event. -/
def report (e : Log.Event) : Session σ ε Unit := modify fun w => { w with log := w.log.emit e }

/-- Reports events in order. -/
def reportAll (events : List Log.Event) : Session σ ε Unit := events.forM report

/-- Sets up logging. -/
def installLog (c : Log.Config) : Session σ Log.SetupError Unit := do
  let w ← get
  match w.log.install c with
  | .ok log => set { w with log }
  | .error (.filter (.split cause)) => throw (.defect (.split cause))
  | .error cause => fail cause

end Session

/-- A host, seen from inside a transaction or from outside. -/
structure Connection (σ : Type) where
  host : Host σ
  inTransaction : Bool := false

namespace Connection

variable {σ : Type}

/-- The connection inside a transaction. -/
def inside (conn : Connection σ) : Connection σ := { conn with inTransaction := true }

/-- Makes a call. -/
def ask (conn : Connection σ) (r : Request) : Session σ HostError r.Answer := do
  let w ← get
  let call : Call := ⟨conn.inTransaction, r⟩
  let (reply, host) := conn.host.answer call w.host
  set { w with host }
  Session.reportAll (conn.host.report call reply)
  Session.ofExcept reply

/-- Makes a call whose failure is an error of the library. -/
def perform (conn : Connection σ) (r : Request) : Session σ Error r.Answer :=
  (conn.ask r).mapError .host

/-- The query that reads no table. -/
def probe : String := "SELECT 1"

/-- Checks that the database answers. -/
def checkHealth (conn : Connection σ) : Session σ HostError Unit :=
  match conn.host.health with
  | .probe => do
    let _ ← conn.ask (.query probe)
  | .own check => do
    let w ← get
    let (reply, events, host) := check w.host
    set { w with host }
    Session.reportAll events
    Session.ofExcept reply

/-- Draws the next identifier. -/
def nextIdentifier (conn : Connection σ) : Session σ Error Identifier := do
  let w ← get
  let (id, stamp, host) := Identifier.generate conn.host.ids w.stamp w.host
  set { w with host, stamp }
  Session.ofExcept id

end Connection

end Discography
