import Discography.Identifier.Generator
import Discography.Log.Entry
import Discography.Error

/-!
# Hosts

The host of the library runs its SQL, reads the clock and draws random bytes. It is a machine with a
state of its own that answers calls one after the other; nothing else is known about it.

## Main definitions

* `Request`, `Call`: what a host is asked to do
* `Outcome`: what a statement did
* `HealthCheck`: how a host finds out whether its database answers
* `Host`: the type
* `Host.journaled`: a host that remembers the calls made to it
-/

namespace Discography

/-- What a statement that returns no rows did. -/
structure Outcome where
  /-- How many rows were inserted, updated or deleted. -/
  rowsAffected : UInt64 := 0
  /-- The key of the last inserted row, as far as the database tells. -/
  lastInsertId : Option Int64 := none
  deriving DecidableEq

/-- What the database of a host is asked to do. -/
inductive Request where
  | execute (sql : String)
  | query (sql : String)
  /-- Opens a transaction. -/
  | start
  | commit
  | rollback
  deriving DecidableEq

/-- What the database returns if it does not fail. -/
abbrev Request.Answer : Request → Type
  | execute _ => Outcome
  | query _ => List Row
  | start => Unit
  | commit => Unit
  | rollback => Unit

/-- A request, made within a transaction or outside of one. -/
structure Call where
  inTransaction : Bool
  request : Request
  deriving DecidableEq

/-- What a call returns. -/
abbrev Call.Reply (c : Call) : Type := Except HostError c.request.Answer

/-- How the health of a database over states `σ` is checked. -/
inductive HealthCheck (σ : Type) where
  /-- By a query that reads no table. -/
  | probe
  /-- By the database itself, which answers and reports events. -/
  | own (check : σ → Except HostError Unit × List Log.Event × σ)

/-- The check by a database that keeps something beside its state. -/
def HealthCheck.beside {σ : Type} (τ : Type) : HealthCheck σ → HealthCheck (σ × τ)
  | probe => probe
  | own check => own fun s => ((check s.1).1, (check s.1).2.1, (check s.1).2.2, s.2)

/-- A host over states `σ`. -/
structure Host (σ : Type) where
  answer : (c : Call) → σ → c.Reply × σ
  /-- The clock and the random source. -/
  ids : Identifier.Source σ Error
  health : HealthCheck σ := .probe
  /-- The events that the host reports about a call. -/
  report : (c : Call) → c.Reply → List Log.Event := fun _ _ => []

namespace Host

variable {σ : Type}

/-- The host that also keeps the calls made to it, in order. -/
def journaled (h : Host σ) : Host (σ × List Call) where
  answer c s := ((h.answer c s.1).1, (h.answer c s.1).2, s.2 ++ [c])
  ids :=
    { now := fun s => ((h.ids.now s.1).1, (h.ids.now s.1).2, s.2)
      noise := fun s => ((h.ids.noise s.1).1, (h.ids.noise s.1).2, s.2) }
  health := h.health.beside (List Call)
  report := h.report

end Host

end Discography
