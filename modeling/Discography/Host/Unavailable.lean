import Discography.Host.Basic

/-!
# Hosts without a database

## Main definitions

* `Host.unavailable`: a host all of whose calls fail
-/

namespace Discography.Host

variable {σ : Type}

/-- The failure of an operation for want of a database. -/
def noDatabase (operation : String) : HostError :=
  .notAvailable (operation ++ ": no database handle configured")

/-- The name of a request in failures. -/
def requestName : Request → String
  | .execute _ => "execute"
  | .query _ => "query"
  | .start => "begin"
  | .commit => "commit"
  | .rollback => "rollback"

/-- A host that has a clock and a random source but no database. -/
def unavailable (ids : Identifier.Source σ Error) : Host σ where
  answer c s := (.error (noDatabase (requestName c.request)), s)
  ids := ids
  health := .own fun s => (.error (noDatabase "health_check"), [], s)

end Discography.Host
