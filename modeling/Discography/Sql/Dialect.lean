import Discography.Sql.Lexeme

/-!
# Dialects

What a database has of its own in the SQL that this library writes: the style of text literals, the
statement that empties a table, the operand of `LIMIT` that means all rows, whether `DEFAULT` may
stand for a cell of an inserted row, and how the rows on the right of `IN` are introduced.

## Main definitions

* `Dialect`: the type
* `Dialect.sqlite`, `Dialect.mysql`: the two dialects of the library
-/

namespace Discography

/-- A dialect of SQL. -/
structure Dialect where
  name : String
  style : TextStyle
  /-- The keywords before the name of a table to be emptied. -/
  truncation : List String
  /-- The limit that means all rows; absent when an offset may stand without a limit. -/
  unbounded : Option Int := none
  /-- Whether `DEFAULT` may stand for a cell of an inserted row. -/
  defaultInRows : Bool := true
  /-- The keywords before the rows on the right of `IN`. -/
  rowsIntroduction : List String := []

namespace Dialect

/-- SQLite doubles apostrophes, has no `TRUNCATE`, needs a limit before an offset, and compares rows
with a `VALUES` query only. -/
def sqlite : Dialect where
  name := "sqlite"
  style := .doubled
  truncation := ["DELETE", "FROM"]
  unbounded := some (-1)
  defaultInRows := false
  rowsIntroduction := ["VALUES"]

/-- MySQL escapes by backslashes and needs a limit before an offset. -/
def mysql : Dialect where
  name := "mysql"
  style := .backslash
  truncation := ["TRUNCATE", "TABLE"]
  unbounded := some 18446744073709551615

/-- Whether backslashes escape in text literals. -/
def backslashEscapes (d : Dialect) : Bool := d.style = .backslash

/-- What precedes the table in the statement that empties it. -/
def truncateOpening (d : Dialect) : Sql := Sql.words d.truncation ++ [.space]

/-- The statement that empties a table. -/
def truncate (d : Dialect) (table : Sql) : Sql := d.truncateOpening ++ table

/-- What precedes the first row on the right of `IN`. -/
def rowsOpening (d : Dialect) : Sql :=
  .symbol "(" :: d.rowsIntroduction.flatMap fun w => [.word w, .space]

/-- The right-hand side of `IN` for the given rows. -/
def rowList (d : Dialect) (rows : List Sql) : Sql :=
  d.rowsOpening ++ Sql.commas rows ++ [.symbol ")"]

/-- The text of the statement that empties a table, given the text of the table. -/
def truncateText (d : Dialect) (table : String) : String := d.truncateOpening.text ++ table

/-- The text of the right-hand side of `IN`, given the texts of the rows. -/
def rowListText (d : Dialect) (rows : List String) : String :=
  d.rowsOpening.text ++ ", ".intercalate rows ++ ")"

end Dialect

end Discography
