import Discography.Cell
import Discography.Identifier.Basic

/-!
# Values

What a caller writes into a query, and what materialized rows hold. A value is a literal: beside the
kinds of a cell it can be a truth value or a list.

## Main definitions

* `Value`: the type
* `ColumnType`: the declared type of a column
* `Cell.toValue`: the value of a cell read from a column of a given type
* `ToValue`: the types whose elements can be used as values
-/

namespace Discography

/-- A literal value. -/
inductive Value where
  | null
  | boolean (b : Bool)
  | integer (i : Int64)
  | real (x : Binary64)
  | text (s : String)
  | blob (bytes : List UInt8)
  /-- A parenthesized list, as it stands on the right of `IN`. -/
  | list (items : List Value)

namespace Value

/-- The name of the kind of a value. -/
def kind : Value → String
  | null => "null"
  | boolean _ => "boolean"
  | integer _ => "integer"
  | real _ => "real"
  | text _ => "string"
  | blob _ => "bytes"
  | list _ => "list"

/-- The null value. -/
def isNull : Value → Bool
  | null => true
  | _ => false

/-- The text of a text value. -/
def text? : Value → Option String
  | text s => some s
  | _ => none

/-- The integer of an integer value. -/
def integer? : Value → Option Int64
  | integer i => some i
  | _ => none

/-- The bytes of a blob value. -/
def blob? : Value → Option (List UInt8)
  | blob bytes => some bytes
  | _ => none

/-- The value with the content of a cell. -/
def ofCell : Cell → Value
  | .null => null
  | .integer i => integer i
  | .real x => real x
  | .text s => text s
  | .blob bytes => blob bytes

end Value

/-- The declared type of a column. -/
inductive ColumnType where
  | string
  | number
  | boolean
  | binary
  deriving DecidableEq

/-- The value of a cell read from a column: integers of boolean columns are truth values. -/
def Cell.toValue (type : ColumnType) : Cell → Value
  | .integer i => if type = .boolean then .boolean (i != 0) else .integer i
  | cell => .ofCell cell

/-- Types whose elements can be used as values. -/
class ToValue (α : Type) where
  toValue : α → Value

export ToValue (toValue)

instance : ToValue Value := ⟨id⟩
instance : ToValue Cell := ⟨.ofCell⟩
instance : ToValue Bool := ⟨.boolean⟩
instance : ToValue Int64 := ⟨.integer⟩
instance : ToValue Int32 := ⟨fun i => .integer i.toInt64⟩
instance : ToValue UInt32 := ⟨fun n => .integer (Int64.ofNat n.toNat)⟩
instance : ToValue Binary64 := ⟨.real⟩
instance : ToValue String := ⟨.text⟩
instance : ToValue Identifier := ⟨fun id => .blob id.bytes⟩

/-- Bytes are a blob, not a list. -/
instance : ToValue (List UInt8) := ⟨.blob⟩

/-- An absent value is null. -/
instance {α : Type} [ToValue α] : ToValue (Option α) := ⟨fun v => v.elim .null toValue⟩

/-- A list of values, whatever their type. -/
def Value.ofList {α : Type} [ToValue α] (items : List α) : Value := .list (items.map toValue)

end Discography
