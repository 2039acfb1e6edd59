import Discography.Host.Basic

/-!
# Scripted hosts

A host that answers from a script: for every kind of call a queue of replies, which are given front
to back. Once a queue is empty, statements affect no rows, queries return none and transactions
succeed, but for a transaction inside a transaction. The clock and the random source repeat their
last reading and draw.

## Main definitions

* `Script`: the replies that are left
* `Host.scripted`: the host that gives them
-/

namespace Discography

/-- Readings, of which the last one repeats. -/
structure Readings (α : Type) where
  current : α
  later : List α := []

/-- The next reading and those after it. -/
def Readings.next {α : Type} (r : Readings α) : α × Readings α :=
  match r.later with
  | [] => (r.current, r)
  | a :: later => (r.current, ⟨a, later⟩)

/-- Ten bytes that repeat the given ones; zeros if there are none. -/
def Identifier.Noise.repeating (bytes : List UInt8) : Identifier.Noise :=
  ⟨(List.range 10).map fun i => bytes.getD (i % bytes.length) 0, by simp⟩

/-- The replies that a scripted host has left. -/
structure Script where
  execute : List (Except HostError Outcome) := []
  query : List (Except HostError (List Row)) := []
  start : List (Except HostError Unit) := []
  /-- Replies to opening a transaction inside a transaction. -/
  nestedStart : List (Except HostError Unit) := []
  commit : List (Except HostError Unit) := []
  rollback : List (Except HostError Unit) := []
  clock : Readings Int64 := ⟨0, []⟩
  noise : Readings (Except String Identifier.Noise) := ⟨.ok (.repeating []), []⟩

namespace Script

/-- The front of a queue, or a reply for when it is empty. -/
def front {α : Type} (queue : List α) (otherwise : α) : α := queue.headD otherwise

/-- The reply to a call, and the replies left. -/
def reply (s : Script) : (c : Call) → c.Reply × Script
  | ⟨_, .execute _⟩ => (front s.execute (.ok {}), { s with execute := s.execute.tail })
  | ⟨_, .query _⟩ => (front s.query (.ok []), { s with query := s.query.tail })
  | ⟨false, .start⟩ => (front s.start (.ok ()), { s with start := s.start.tail })
  | ⟨true, .start⟩ =>
    (front s.nestedStart (.error (.notAvailable "nested")),
      { s with nestedStart := s.nestedStart.tail })
  | ⟨_, .commit⟩ => (front s.commit (.ok ()), { s with commit := s.commit.tail })
  | ⟨_, .rollback⟩ => (front s.rollback (.ok ()), { s with rollback := s.rollback.tail })

/-- The clock and the random source of a script. -/
def source : Identifier.Source Script String where
  now s := (s.clock.next.1, { s with clock := s.clock.next.2 })
  noise s := (s.noise.next.1, { s with noise := s.noise.next.2 })

end Script

/-- The host that answers from a script. -/
def Host.scripted : Host Script where
  answer c s := s.reply c
  ids := Script.source.mapError .random

end Discography
