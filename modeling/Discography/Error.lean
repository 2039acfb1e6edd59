import Discography.Cell
import Discography.Identifier.Basic
import Discography.Json.Decode
import Discography.Query.Stage
import Discography.Sql.Literal
import Discography.Sql.Literal.Reader

/-!
# Errors

Everything that can go wrong when a query is built, rendered or run. An error is its cause; the
wording of all of them is in `Error.message`.

## Main definitions

* `HostError`: failures of the database
* `Misuse`: operations that a query refuses
* `InputError`: entities that the catalogue refuses
* `DecodeFailure`: texts and rows without the expected content
* `Error`: all of these
-/

namespace Discography

/-- A failure of the database, reported by the host. -/
inductive HostError where
  | notAvailable (text : String)
  | operationFailed (text : String)
  | databaseError (text : String)
  | transactionClosed
  deriving DecidableEq

/-- The wording of the failure. -/
def HostError.message : HostError → String
  | notAvailable text => "Bridge capability not available: " ++ text
  | operationFailed text => "Bridge operation failed: " ++ text
  | databaseError text => "Database error: " ++ text
  | transactionClosed => "Transaction already finished"

/-- An operation that a query refuses, or an argument that it cannot take. -/
inductive Misuse where
  /-- The table has no column of that name. -/
  | noColumn (aliasName name : String)
  | unknownOperator (text : String)
  | noTableInScope (aliasName : String)
  /-- Several tables in scope have a column of that name. -/
  | ambiguousColumn (name : String)
  /-- No table in scope has a column of that name. -/
  | noColumnInScope (name : String)
  /-- The operation is illegal at the stage. -/
  | illegal (op : Operation) (stage : Stage)
  | repeatedFilter
  /-- A condition was given before there was a join or a filter to add it to. -/
  | priorToJoin
  | aliasOfPrimary (aliasName : String)
  | aliasOfJoin (aliasName : String)
  | joinWithoutColumns (aliasName : String)
  | emptyProjection
  | repeatedKey (key : String)
  | columnOutOfScope (aliasName name : String)
  | thenByFirst
  | nestedProjection
  /-- The table is a subquery and cannot be changed. -/
  | subqueryTarget (op : Operation) (aliasName : String)
  | noRows
  /-- A row assigns a column that the table does not have. -/
  | unknownAssignment (column aliasName : String)
  | noAssignments
  /-- A misuse that a caller of the library found. -/
  | stated (text : String)
  deriving DecidableEq

/-- The wording of the misuse. -/
def Misuse.message : Misuse → String
  | noColumn aliasName name => "table " ++ aliasName ++ " has no column named " ++ name
  | unknownOperator text => "unsupported comparison operator " ++ Text.quote text
  | noTableInScope aliasName => "no table aliased " ++ aliasName ++ " in scope"
  | ambiguousColumn name => "column " ++ name ++ " is ambiguous; nest it under a table alias"
  | noColumnInScope name => "no table in scope has a column named " ++ name
  | illegal op stage => op.name ++ " is not allowed here: " ++ stage.refusal
  | repeatedFilter => "where called multiple times"
  | priorToJoin => "on/and/or used prior to join"
  | aliasOfPrimary aliasName => "joined table has same alias as the primary table: " ++ aliasName
  | aliasOfJoin aliasName => "joined table has same alias as an earlier join: " ++ aliasName
  | joinWithoutColumns aliasName => "joined table has zero columns: " ++ aliasName
  | emptyProjection => "selection has no columns"
  | repeatedKey key => "selection key " ++ key ++ " appears more than once"
  | columnOutOfScope aliasName name =>
    "column " ++ aliasName ++ "." ++ name ++ " is not in scope of this query"
  | thenByFirst => "then_by called before order_by"
  | nestedProjection => "as_table requires a flat projection of columns"
  | subqueryTarget op aliasName => "cannot " ++ op.name ++ " into subquery table " ++ aliasName
  | noRows => "insert requires at least one row"
  | unknownAssignment column aliasName =>
    "column " ++ column ++ " does not exist in table " ++ aliasName
  | noAssignments => "update requires at least one value"
  | stated text => text

/-- Something that the library does not do. -/
inductive Unsupported where
  /-- A change of the tables of a join. -/
  | overJoins (op : Operation)
  /-- A gap that a caller of the library found. -/
  | stated (text : String)
  deriving DecidableEq

/-- The wording of the gap. -/
def Unsupported.message : Unsupported → String
  | overJoins op => op.name ++ " over joined tables"
  | stated text => text

/-- A text, a row or a document without the expected content. -/
inductive DecodeFailure where
  | literal (cause : Literal.ReadError)
  | notQuotedName (text : String)
  /-- A row has another number of cells than the projection has columns. -/
  | rowWidth (actual expected : Nat)
  /-- A count is no natural number. -/
  | count (found : Option Cell)
  | document (cause : Json.DecodeError)
  /-- A failure that a caller of the library found. -/
  | stated (text : String)

/-- The wording of the failure. -/
def DecodeFailure.message : DecodeFailure → String
  | literal cause => cause.message
  | notQuotedName text => "not a quoted identifier: " ++ text
  | rowWidth actual expected =>
    "row has " ++ toString actual ++ " cells, projection expects " ++ toString expected
  | count none => "count query returned None"
  | count (some cell) => "count query returned Some(" ++ cell.describe ++ ")"
  | document cause => cause.message
  | stated text => text

/-- A field of an entity that the catalogue refuses. -/
inductive InputError where
  /-- The field is blank. -/
  | blank (field : String)
  | yearOutOfRange (year : Int64)
  | trackNumber
  | negativeDuration
  deriving DecidableEq

/-- The field that is refused. -/
def InputError.field : InputError → String
  | blank field => field
  | yearOutOfRange _ => "year"
  | trackNumber => "track_number"
  | negativeDuration => "duration_ms"

/-- The wording of the refusal. -/
def InputError.message : InputError → String
  | blank field => field ++ " cannot be empty"
  | yearOutOfRange year => "Album year " ++ toString year.toInt ++ " is out of valid range"
  | trackNumber => "Track number must be at least 1"
  | negativeDuration => "Duration cannot be negative"

/-- An entity of the catalogue that can be missing. -/
inductive Entity where
  | artist
  | album
  deriving DecidableEq

/-- The name of an entity in messages. -/
def Entity.name : Entity → String
  | artist => "Artist"
  | album => "Album"

/-- An error of the library. -/
inductive Error where
  | host (cause : HostError)
  | misuse (cause : Misuse)
  | unsupported (cause : Unsupported)
  | noLiteral (cause : NoLiteral)
  | cardinality (expected actual : Nat)
  | identifier (cause : Identifier.ParseError)
  | random (text : String)
  | decode (cause : DecodeFailure)
  | notFound (entity : Entity) (id : Identifier)
  | invalidInput (cause : InputError)

/-- The wording of an error. -/
def Error.message : Error → String
  | host cause => "Bridge error: " ++ cause.message
  | misuse cause => "Query DSL misuse: " ++ cause.message
  | unsupported cause => "Not supported yet: " ++ cause.message
  | noLiteral cause => cause.message
  | cardinality expected actual =>
    "Expected exactly " ++ toString expected ++ " row(s), got " ++ toString actual
  | identifier cause => "Invalid identifier: " ++ cause.message
  | random text => "Random source failed: " ++ text
  | decode cause => "Row decode failed: " ++ cause.message
  | notFound entity id => "Entity not found: " ++ entity.name ++ " with id " ++ id.text
  | invalidInput cause => "Invalid input: " ++ cause.field ++ " - " ++ cause.message

/-- What building and rendering a query returns. -/
abbrev Result (α : Type) := Except Error α

end Discography
