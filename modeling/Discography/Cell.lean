import Discography.Decimal.Layout
import Discography.Text.Quoted

/-!
# Cells

What a database returns in one column of one row. Rows are positional: a list of cells, in the order
of the selected columns.

## Main definitions

* `Cell`: null, an integer, a real, a text or bytes
* `Row`: one cell per selected column
* `Cell.describe`: the form that messages show
-/

namespace Discography

/-- A cell of a result row. -/
inductive Cell where
  | null
  | integer (i : Int64)
  | real (x : Binary64)
  | text (s : String)
  | blob (bytes : List UInt8)
  deriving DecidableEq

/-- A result row: one cell per selected column, in order. -/
abbrev Row := List Cell

namespace Cell

/-- The null cell. -/
def isNull : Cell → Bool
  | null => true
  | _ => false

/-- The integer of an integer cell. -/
def integer? : Cell → Option Int64
  | integer i => some i
  | _ => none

/-- The number of a numeric cell, an integer rounded to the nearest real. -/
def real? : Cell → Option Binary64
  | real x => some x
  | integer i => some (.ofInt i.toInt)
  | _ => none

/-- The text of a text cell. -/
def text? : Cell → Option String
  | text s => some s
  | _ => none

/-- The bytes of a blob cell. -/
def blob? : Cell → Option (List UInt8)
  | blob bytes => some bytes
  | _ => none

/-- The form that messages show: the kind, and the content in parentheses. -/
def describe : Cell → String
  | null => "Null"
  | integer i => "Integer(" ++ toString i.toInt ++ ")"
  | real x => "Real(" ++ String.ofList (Decimal.Layout.literal.write x) ++ ")"
  | text s => "Text(" ++ Text.quote s ++ ")"
  | blob bytes => "Blob([" ++ ", ".intercalate (bytes.map fun b => toString b.toNat) ++ "])"

end Cell

end Discography
