import Discography.Error
import Discography.Log.Entry
import Discography.Log.Filter
import Discography.Text.FileName

/-!
# Configuration of logging

How log lines look, which events pass, and where entries are forwarded to. Without a filter of its
own, a configuration lets the parts of this program report from its level on and everything below
them from warnings on. The text of statements is reported below `info`; unless the configuration
asks for it, the parts that report it are held at `info`.

## Main definitions

* `Log.Sink`: what entries are forwarded to
* `Log.Config`: the type
* `Log.Config.filter`: which events pass
* `Log.Config.displayPath`: a path as it appears in log lines
-/

namespace Discography.Log

/-- How log lines look. -/
inductive Format where
  | pretty
  | json
  | compact
  deriving DecidableEq

/-- The name of a format in diagnostic output. -/
def Format.name : Format → String
  | pretty => "Pretty"
  | json => "Json"
  | compact => "Compact"

/-- The formats. -/
def Format.all : List Format := [pretty, json, compact]

/-- A part of the host that takes log entries. -/
structure Sink where
  /-- Entries below this level are not forwarded. -/
  minLevel : Level := .info
  /-- What the host answers to an entry. -/
  accept : Entry → Except HostError Unit := fun _ => .ok ()

/-- A configuration of logging. -/
structure Config where
  format : Format := .pretty
  level : Level := .info
  /-- Whether paths are shown by their file names. -/
  redact : Bool := true
  /-- Whether the text of statements is reported. -/
  sql : Bool := false
  /-- The text of a filter that replaces the filter by level. -/
  filterText : Option String := none
  sink : Option Sink := none
  spans : Bool := true
  showTarget : Bool := true
  showThread : Bool := false

namespace Config

/-- The parts of this program by the beginning of their names. -/
def ownTargets : List String := ["bridge_traits", "core_runtime", "core_library", "core_service"]

/-- The parts that report the text of statements. -/
def statementTargets : List String := [Target.execution, Target.adapters]

/-- The text of a directive. -/
def directiveText (target level : String) : String := target ++ "=" ++ level

/-- The text of the filter by level. -/
def levelFilterText (c : Config) : String :=
  let own := ownTargets.map (directiveText · c.level.lowerName)
  let statements :=
    if !c.sql && decide (c.level < .info) then
      statementTargets.map (directiveText · Level.info.lowerName)
    else []
  ",".intercalate (own ++ [directiveText "sqlx" Level.warn.lowerName] ++ statements)

/-- Which events pass. -/
def filter (c : Config) : Except FilterError Filter :=
  Filter.parse (c.filterText.getD c.levelFilterText)

/-- A path as it appears in log lines. -/
def displayPath (c : Config) (path : String) : String :=
  if c.redact then Text.fileName path else path

/-- The form of a truth value in diagnostic output. -/
def describeFlag (b : Bool) : String := if b then "true" else "false"

/-- The form of a text that may be absent in diagnostic output. -/
def describeText : Option String → String
  | none => "None"
  | some text => "Some(" ++ Text.quote text ++ ")"

/-- The form of a configuration in diagnostic output. -/
def describe (c : Config) : String :=
  let fields := [
    ("format", c.format.name),
    ("level", c.level.name),
    ("redact_pii", describeFlag c.redact),
    ("sql_statements", describeFlag c.sql),
    ("filter", describeText c.filterText),
    ("logger_sink", describeText (c.sink.map fun _ => "LoggerSink \x7b ... \x7d")),
    ("enable_spans", describeFlag c.spans),
    ("display_target", describeFlag c.showTarget),
    ("display_thread_info", describeFlag c.showThread)]
  "LoggingConfig \x7b " ++ ", ".intercalate (fields.map fun (key, text) => key ++ ": " ++ text) ++
    " \x7d"

end Config

end Discography.Log
