import Discography.Decimal.Layout
import Discography.Decimal.Integer
import Discography.Keyed

/-!
# JSON documents

Documents with ordered members, their compact text, and their canonical form, in which the members
of every object are sorted by key and a repeated key keeps its last value.

## Main definitions

* `Json`: documents
* `Json.text`: the compact text
* `Json.canonical`: the document with sorted and distinct keys
-/

namespace Discography

/-- A JSON document. -/
inductive Json where
  | null
  | boolean (b : Bool)
  | integer (i : Int)
  | real (x : Binary64)
  | string (s : String)
  | array (items : List Json)
  | object (members : List (String × Json))

namespace Json

/-- The form of a character between the quotes of a string: the two marks, five controls with
letters of their own, and the other controls by their number. -/
def escape (c : Char) : List Char :=
  if c = '"' then ['\\', '"']
  else if c = '\\' then ['\\', '\\']
  else if c = '\x08' then ['\\', 'b']
  else if c = '\x0c' then ['\\', 'f']
  else if c = '\n' then ['\\', 'n']
  else if c = '\r' then ['\\', 'r']
  else if c = '\t' then ['\\', 't']
  else if c.toNat < 32 then
    let digits := Nat.toDigits 16 c.toNat
    ['\\', 'u'] ++ List.replicate (4 - digits.length) '0' ++ digits
  else [c]

/-- A string between quotes. -/
def quoteString (s : String) : String :=
  String.ofList ('"' :: s.toList.flatMap escape ++ ['"'])

mutual

/-- The compact text; a real without a finite value is written as `null`. -/
def text : Json → String
  | null => "null"
  | boolean b => if b then "true" else "false"
  | integer i => String.ofList (Decimal.writeInt i)
  | real x =>
    if x.isFinite then String.ofList (Decimal.Layout.json.write x) else "null"
  | string s => quoteString s
  | array items => "[" ++ ",".intercalate (itemTexts items) ++ "]"
  | object members => "\x7b" ++ ",".intercalate (memberTexts members) ++ "\x7d"

/-- The texts of the items of an array. -/
def itemTexts : List Json → List String
  | [] => []
  | j :: rest => j.text :: itemTexts rest

/-- The texts of the members of an object. -/
def memberTexts : List (String × Json) → List String
  | [] => []
  | (key, j) :: rest => (quoteString key ++ ":" ++ j.text) :: memberTexts rest

end

mutual

/-- The document with the members of every object sorted by key, the last of each key only. -/
def canonical : Json → Json
  | array items => array (canonicalItems items)
  | object members => object (canonicalMembers [] members)
  | j => j

/-- The canonical forms of the items of an array. -/
def canonicalItems : List Json → List Json
  | [] => []
  | j :: rest => j.canonical :: canonicalItems rest

/-- Puts the canonical forms of members, one after the other, into a list with sorted keys. -/
def canonicalMembers (sorted : List (String × Json)) : List (String × Json) → List (String × Json)
  | [] => sorted
  | (key, j) :: rest => canonicalMembers (Keyed.insert key j.canonical sorted) rest

end

end Json

/-- Types whose elements have a JSON form. -/
class ToJson (α : Type) where
  toJson : α → Json

export ToJson (toJson)

instance : ToJson Json := ⟨id⟩
instance : ToJson Bool := ⟨.boolean⟩
instance : ToJson String := ⟨.string⟩
instance : ToJson Binary64 := ⟨.real⟩
instance : ToJson Int64 := ⟨fun i => .integer i.toInt⟩
instance : ToJson UInt8 := ⟨fun n => .integer n.toNat⟩
instance : ToJson UInt32 := ⟨fun n => .integer n.toNat⟩
instance : ToJson UInt64 := ⟨fun n => .integer n.toNat⟩
instance {α : Type} [ToJson α] : ToJson (Option α) := ⟨fun v => v.elim .null toJson⟩
instance {α : Type} [ToJson α] : ToJson (List α) := ⟨fun items => .array (items.map toJson)⟩

end Discography
