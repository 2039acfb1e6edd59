import Discography.Keyed
import Discography.Log.Level
import Discography.Text.Quoted

/-!
# Log events and entries

An event is what a part of the program reports. An entry is what a log sink receives of it: its
fields are sorted by key, and the name of an event stands in for a missing message.

## Main definitions

* `Log.Event`: what is reported
* `Log.Span`: a stretch of the program in which events are reported
* `Log.Entry`: what a sink receives
* `Log.Target`: the parts of the program that report
-/

namespace Discography.Log

/-- An event, before any filter. -/
structure Event where
  level : Level
  /-- The part of the program that reports the event. -/
  target : String
  /-- What the event is called if it has no message. -/
  name : String := ""
  message : Option String
  fields : List (String × String) := []

/-- The names of the fields of an event, of which the message is one. -/
def Event.fieldNames (e : Event) : List String :=
  (if e.message.isSome then ["message"] else []) ++ e.fields.map Prod.fst

/-- A stretch of the program in which events are reported. -/
structure Span where
  name : String
  target : String
  level : Level
  deriving DecidableEq

/-- A log entry. -/
structure Entry where
  level : Level
  target : String
  message : String
  /-- The fields, sorted by key. -/
  fields : List (String × String)
  /-- The span that the event was recorded in. -/
  span : Option String := none
  deriving DecidableEq

/-- The entry for an event that was recorded in a span. -/
def Event.entry (e : Event) (span : Option String) : Entry where
  level := e.level
  target := e.target
  message := e.message.getD e.name
  fields := Keyed.ofList e.fields
  span := span

/-! ### The parts of the program that report events -/

/-- The name under which the running of statements is reported. -/
def Target.execution : String := "core_library::exec"

/-- The name under which changes of the catalogue are reported. -/
def Target.catalogue : String := "core_library::catalog"

/-- The name under which the adapters of databases report. -/
def Target.adapters : String := "core_library::adapters"

/-- The name under which the built-in database reports. -/
def Target.builtIn : String := "core_library::adapters::sqlite_native"

/-- The name under which the start of the service is reported. -/
def Target.service : String := "core_service"

end Discography.Log
