import Discography.Config.Basic
import Discography.Error
import Discography.Log.Subscriber

/-!
# Errors of the service

## Main definitions

* `StartError`: why the service cannot be prepared
* `ServiceError`: why the service cannot start or does not answer
-/

namespace Discography

/-- Why the service cannot be prepared. -/
inductive StartError where
  | config (cause : ConfigError)
  | logging (cause : Log.SetupError)
  deriving DecidableEq

/-- The wording of the error. -/
def StartError.message : StartError → String
  | config cause => "Configuration error: " ++ cause.message
  | logging cause => "Logging error: " ++ cause.message

/-- Why the service cannot start or does not answer. -/
inductive ServiceError where
  /-- The database does not answer. -/
  | unreachable (cause : HostError)
  /-- There is no built-in database for MySQL. -/
  | noMysql
  | start (cause : StartError)
  | library (cause : Error)
  | host (cause : HostError)

/-- The wording of the error. -/
def ServiceError.message : ServiceError → String
  | unreachable cause => "Core initialization failed: database unreachable: " ++ cause.message
  | noMysql => "Capability missing: database.mysql - no built-in MySQL handle; " ++
      "pass one to bootstrap_with_handle"
  | start cause => "Runtime error: " ++ cause.message
  | library cause => "Library error: " ++ cause.message
  | host cause => "Database error: " ++ cause.message

end Discography
