/-!
# Levels of log events

## Main definitions

* `Log.Level`: the five levels, from the most detailed to the gravest
* `Log.Threshold`: which levels pass
-/

namespace Discography.Log

/-- How grave an event is. -/
inductive Level where
  | trace
  | debug
  | info
  | warn
  | error
  deriving DecidableEq

namespace Level

/-- All levels, the most detailed first. -/
def all : List Level := [trace, debug, info, warn, error]

/-- The position of a level. -/
def rank : Level → Nat
  | trace => 0
  | debug => 1
  | info => 2
  | warn => 3
  | error => 4

instance : LE Level := ⟨fun a b => a.rank ≤ b.rank⟩
instance : LT Level := ⟨fun a b => a.rank < b.rank⟩

instance (a b : Level) : Decidable (a ≤ b) := inferInstanceAs (Decidable (a.rank ≤ b.rank))
instance (a b : Level) : Decidable (a < b) := inferInstanceAs (Decidable (a.rank < b.rank))

/-- The name of a level. -/
def name : Level → String
  | trace => "Trace"
  | debug => "Debug"
  | info => "Info"
  | warn => "Warn"
  | error => "Error"

/-- The name of a level in filters. -/
def lowerName : Level → String
  | trace => "trace"
  | debug => "debug"
  | info => "info"
  | warn => "warn"
  | error => "error"

/-- The name of a level in printed lines. -/
def upperName : Level → String
  | trace => "TRACE"
  | debug => "DEBUG"
  | info => "INFO"
  | warn => "WARN"
  | error => "ERROR"

end Level

/-- The least level that passes; none if no level does. -/
abbrev Threshold := Option Level

/-- Whether a level passes. -/
def Threshold.admits (t : Threshold) (level : Level) : Bool := t.any (· ≤ level)

end Discography.Log
