import Discography.Log.Config

/-!
# Subscription to log events

One subscriber can be installed, once. From then on it forwards the events that pass its filter to
its sink; before that all events are lost. A sink that refuses an entry causes a line on the error
output and nothing else.

## Main definitions

* `Log.State`: the subscriber, and what came of the events so far
* `Log.State.install`: sets the subscriber
* `Log.State.emit`: reports an event
-/

namespace Discography.Log

/-- What forwards events. -/
structure Subscriber where
  filter : Filter
  sink : Option Sink

/-- Logging, and what came of it so far. -/
structure State where
  subscriber : Option Subscriber := none
  /-- The entries that the sink received, in order. -/
  received : List Entry := []
  /-- The lines printed about entries that the sink refused. -/
  complaints : List String := []

/-- Why logging cannot be set up. -/
inductive SetupError where
  | filter (cause : FilterError)
  | alreadyInstalled
  deriving DecidableEq

/-- The wording of the error. -/
def SetupError.message : SetupError → String
  | filter cause => "Invalid log filter: " ++ cause.message
  | alreadyInstalled =>
    "Failed to initialize logging: a global default trace dispatcher has already been set"

namespace State

/-- Sets the subscriber that a configuration asks for. -/
def install (s : State) (c : Config) : Except SetupError State := do
  let filter ← c.filter.mapError .filter
  match s.subscriber with
  | some _ => .error .alreadyInstalled
  | none => .ok { s with subscriber := some ⟨filter, c.sink⟩ }

/-- Hands an entry to the sink. -/
def deliver (s : State) (sink : Sink) (entry : Entry) : State :=
  { s with
    received := s.received ++ [entry]
    complaints := match sink.accept entry with
      | .ok () => s.complaints
      | .error cause => s.complaints ++ ["LoggerSink error: " ++ cause.message] }

/-- Reports an event; a span that does not pass the filter is not known to the entry. -/
def emit (s : State) (e : Event) (span : Option Span := none) : State :=
  match s.subscriber with
  | some ⟨filter, some sink⟩ =>
    let passes := match span with
      | none => filter.enables e
      | some span => filter.enablesWithin span e
    if passes && decide (sink.minLevel ≤ e.level) then
      s.deliver sink (e.entry ((span.filter filter.tracks).map Span.name))
    else s
  | _ => s

end State

end Discography.Log
