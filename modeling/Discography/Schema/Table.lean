import Discography.Error
import Discography.Sql.Dialect

/-!
# Tables

A table has an alias, an origin and columns. The origin is a dotted path of names in the database,
or the statement of a query that is used as a table. A column that is handed out knows the alias and
the origin of its table; the table stores neither in its columns, so they cannot disagree.

## Main definitions

* `Origin`: where the rows of a table come from
* `Attribute`: a declared column
* `Table`: the type; `Table.named` declares a table of the database
* `Column`: an attribute of an aliased table
-/

namespace Discography

/-- Where the rows of a table come from. -/
inductive Origin where
  /-- A table of the database, by the segments of its name. -/
  | path (segments : List String)
  /-- The rows of a query. -/
  | subquery (sql : Sql)
  deriving DecidableEq

namespace Origin

/-- The lexemes of an origin. -/
def sql : Origin → Sql
  | path segments => Sql.path segments
  | subquery sql => Sql.parens sql

/-- Whether the origin is a query. -/
def isSubquery : Origin → Bool
  | path _ => false
  | subquery _ => true

/-- The last segment of the name of a table of the database. -/
def lastSegment? : Origin → Option String
  | path segments => segments.getLast?
  | subquery _ => none

end Origin

/-- A column of another table whose values the values of a column are among. -/
structure Reference where
  table : String
  column : String
  deriving DecidableEq

/-- A declared column. -/
structure Attribute where
  name : String
  type : ColumnType
  nullable : Bool := false
  hasDefault : Bool := false
  references : Option Reference := none
  deriving DecidableEq

namespace Attribute

/-- The column may be null. -/
def orNull (a : Attribute) : Attribute := { a with nullable := true }

/-- The column has a default. -/
def withDefault (a : Attribute) : Attribute := { a with hasDefault := true }

/-- The column refers to a column of another table. -/
def referring (a : Attribute) (table column : String) : Attribute :=
  { a with references := some ⟨table, column⟩ }

end Attribute

/-- A column of an aliased table. -/
structure Column where
  origin : Origin
  aliasName : String
  declared : Attribute
  deriving DecidableEq

namespace Column

/-- The name of a column. -/
abbrev name (c : Column) : String := c.declared.name

/-- The lexemes of a column: the alias of its table and its name. -/
def sql (c : Column) : Sql := Sql.path [c.aliasName, c.name]

end Column

/-- A table under an alias. -/
structure Table where
  aliasName : String
  origin : Origin
  attributes : List Attribute
  deriving DecidableEq

namespace Table

/-- A table of the database; dots separate the segments of its name, and the last segment is its
alias. -/
def named (name : String) (attributes : List Attribute) : Table :=
  let segments := (name.toList.splitOn '.').map String.ofList
  { aliasName := segments.getLast?.getD name, origin := .path segments, attributes }

/-- A column of the table for one of its attributes. -/
def columnOf (t : Table) (a : Attribute) : Column := ⟨t.origin, t.aliasName, a⟩

/-- The columns of the table. -/
def columns (t : Table) : List Column := t.attributes.map t.columnOf

/-- The first column of that name. -/
def column? (t : Table) (name : String) : Option Column :=
  (t.attributes.find? (·.name = name)).map t.columnOf

/-- The column of that name. -/
def column (t : Table) (name : String) : Result Column :=
  match t.column? name with
  | some c => .ok c
  | none => .error (.misuse (.noColumn t.aliasName name))

/-- The same table under another alias. -/
def withAlias (t : Table) (aliasName : String) : Table := { t with aliasName }

/-- The lexemes that bring the table into scope: its origin and its alias. -/
def sourceSql (t : Table) : Sql :=
  t.origin.sql ++ [.space, .word "AS", .space, .name t.aliasName]

/-- What an update or a deletion names: the origin, and the alias where it differs. -/
def targetSql (t : Table) : Sql :=
  if t.origin.lastSegment? = some t.aliasName then t.origin.sql else t.sourceSql

end Table

end Discography
