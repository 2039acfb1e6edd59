import Discography.Host.Basic
import Discography.Json.Decode
import Discography.Value

/-!
# Tagged values in JSON

Values with several constructors are written by the name of the constructor: a string if it has no
content, and otherwise an object with the content under the name.

## Main definitions

* `Cell.kind`, `ColumnType.name`: the names of the constructors
* the JSON forms of cells, column types, levels and outcomes
-/

namespace Discography

/-- The name of the kind of a cell. -/
def Cell.kind : Cell → String
  | null => "Null"
  | integer _ => "Integer"
  | real _ => "Real"
  | text _ => "Text"
  | blob _ => "Blob"

/-- The names of the kinds of cells. -/
def Cell.kinds : List String := ["Null", "Integer", "Real", "Text", "Blob"]

instance : ToJson Cell where
  toJson c :=
    match c with
    | .null => .string c.kind
    | .integer i => .object [(c.kind, toJson i)]
    | .real x => .object [(c.kind, toJson x)]
    | .text s => .object [(c.kind, toJson s)]
    | .blob bytes => .object [(c.kind, toJson bytes)]

instance : FromJson Cell where
  fromJson j := do
    match ← Json.variant Cell.kinds j with
    | ("Integer", content) => return .integer (← Json.content content)
    | ("Real", content) => return .real (← Json.content content)
    | ("Text", content) => return .text (← Json.content content)
    | ("Blob", content) => return .blob (← Json.content content)
    | (_, content) =>
      Json.noContent content
      return .null

namespace ColumnType

/-- All column types. -/
def all : List ColumnType := [string, number, boolean, binary]

/-- The name of a column type. -/
def name : ColumnType → String
  | string => "String"
  | number => "Number"
  | boolean => "Boolean"
  | binary => "Binary"

end ColumnType

instance : ToJson ColumnType := ⟨fun t => .string t.name⟩
instance : FromJson ColumnType := ⟨Json.constant ColumnType.all ColumnType.name⟩

instance : ToJson Log.Level := ⟨fun l => .string l.name⟩
instance : FromJson Log.Level := ⟨Json.constant Log.Level.all Log.Level.name⟩

instance : ToJson Outcome where
  toJson o := .object
    [("rows_affected", toJson o.rowsAffected), ("last_insert_id", toJson o.lastInsertId)]

instance : FromJson Outcome where
  fromJson j := do
    let members ← j.fields "ExecuteResult"
      [.required "rows_affected" UInt64, .optionally "last_insert_id" Int64]
    return ⟨← Json.field members "rows_affected", ← Json.field members "last_insert_id"⟩

end Discography
