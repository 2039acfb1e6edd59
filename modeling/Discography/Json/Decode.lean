import Discography.Identifier.Basic
import Discography.Json.Basic

/-!
# Decoding JSON documents

Typed values of canonical documents. Numbers are not converted to other kinds, but for integers
where a real is expected. A structure is decoded from an object or from an array in the order of its
fields. In an object the given members are checked in key order before a missing one is reported;
members that the structure does not have are ignored, and absent optional members are null.

## Main definitions

* `Json.DecodeError`: why a document has no value of a type
* `FromJson`: the types that can be decoded
* `Json.fields`: the members of a structure
* `Json.variant`: the constructor and content of a tagged value
* `Json.constant`: the value that a name without content stands for
-/

namespace Discography

namespace Json

/-- What a decoder found. -/
inductive Found where
  | null
  | boolean (b : Bool)
  | integer (i : Int)
  | real (x : Binary64)
  | string (s : String)
  | sequence
  | map
  | unitVariant

/-- What a document is to a decoder. -/
def found : Json → Found
  | null => .null
  | boolean b => .boolean b
  | integer i => .integer i
  | real x => .real x
  | string s => .string s
  | array _ => .sequence
  | object _ => .map

/-- The wording of what was found. -/
def Found.message : Found → String
  | null => "null"
  | boolean b => "boolean \x60" ++ (if b then "true" else "false") ++ "\x60"
  | integer i => "integer \x60" ++ toString i ++ "\x60"
  | real x => "floating point \x60" ++ (Json.real x).text ++ "\x60"
  | string s => "string " ++ Text.quote s
  | sequence => "sequence"
  | map => "map"
  | unitVariant => "unit variant"

/-- Why a document has no value of a type. -/
inductive DecodeError where
  | invalidType (found : Found) (expected : String)
  | invalidValue (found : Found) (expected : String)
  | invalidLength (length : Nat) (expected : String)
  | missingField (name : String)
  | unknownVariant (name : String) (variants : List String)
  | identifier (cause : Identifier.ParseError)

/-- The wording of a choice between names. -/
def choice : List String → String
  | [] => "there are no variants"
  | [a] => "expected \x60" ++ a ++ "\x60"
  | [a, b] => "expected \x60" ++ a ++ "\x60 or \x60" ++ b ++ "\x60"
  | names => "expected one of " ++ ", ".intercalate (names.map fun n => "\x60" ++ n ++ "\x60")

/-- The wording of the error. -/
def DecodeError.message : DecodeError → String
  | invalidType found expected => "invalid type: " ++ found.message ++ ", expected " ++ expected
  | invalidValue found expected => "invalid value: " ++ found.message ++ ", expected " ++ expected
  | invalidLength length expected =>
    "invalid length " ++ toString length ++ ", expected " ++ expected
  | missingField name => "missing field \x60" ++ name ++ "\x60"
  | unknownVariant name variants => "unknown variant \x60" ++ name ++ "\x60, " ++ choice variants
  | identifier cause => "Invalid identifier: " ++ cause.message

/-- The result of decoding a value of `α`. -/
abbrev Decoded (α : Type) := Except DecodeError α

end Json

/-- Types whose elements can be decoded. -/
class FromJson (α : Type) where
  fromJson : Json → Json.Decoded α

export FromJson (fromJson)

namespace Json

/-- An integer between two bounds. -/
def boundedInteger (least greatest : Int) (expected : String) : Json → Decoded Int
  | .integer i =>
    if least ≤ i ∧ i ≤ greatest then .ok i else .error (.invalidValue (.integer i) expected)
  | j => .error (.invalidType j.found expected)

end Json

instance : FromJson Json := ⟨.ok⟩

instance : FromJson Int64 :=
  ⟨fun j => (j.boundedInteger Int64.minValue.toInt Int64.maxValue.toInt "i64").map Int64.ofInt⟩

instance : FromJson UInt8 := ⟨fun j => (j.boundedInteger 0 (UInt8.size - 1) "u8").map UInt8.ofInt⟩

instance : FromJson UInt32 :=
  ⟨fun j => (j.boundedInteger 0 (UInt32.size - 1) "u32").map UInt32.ofInt⟩

instance : FromJson UInt64 :=
  ⟨fun j => (j.boundedInteger 0 (UInt64.size - 1) "u64").map UInt64.ofInt⟩

/-- Integers are rounded to the nearest real. -/
instance : FromJson Binary64 where
  fromJson
    | .real x => .ok x
    | .integer i => .ok (.ofInt i)
    | j => .error (.invalidType j.found "f64")

instance : FromJson Bool where
  fromJson
    | .boolean b => .ok b
    | j => .error (.invalidType j.found "a boolean")

instance : FromJson String where
  fromJson
    | .string s => .ok s
    | j => .error (.invalidType j.found "a string")

/-- The unit value is written as null. -/
instance : FromJson Unit where
  fromJson
    | .null => .ok ()
    | j => .error (.invalidType j.found "unit")

instance {α : Type} [FromJson α] : FromJson (Option α) where
  fromJson
    | .null => .ok none
    | j => (fromJson j).map some

instance {α : Type} [FromJson α] : FromJson (List α) where
  fromJson
    | .array items => items.mapM fromJson
    | j => .error (.invalidType j.found "a sequence")

/-- The identifier that a byte string of a document stands for. JSON documents have an array of
numbers in its place. -/
def Identifier.decodeBytes (bytes : List UInt8) : Json.Decoded Identifier :=
  (Identifier.ofBytes bytes).mapError .identifier

/-- An identifier is written as its text form, or as its bytes. -/
instance : FromJson Identifier where
  fromJson
    | .string s => (Identifier.parse s).mapError .identifier
    | .array items => do
      let bytes : List UInt8 ← items.mapM fromJson
      Identifier.decodeBytes bytes
    | j => .error (.invalidType j.found "a hyphenated identifier string or 16 bytes")

instance : ToJson Identifier := ⟨fun id => .string id.text⟩

namespace Json

/-- A field of a structure, with the check that a document has a value of its type. -/
structure Field where
  name : String
  optional : Bool
  check : Json → Decoded Unit

/-- A field that must be present. -/
def Field.required (name : String) (α : Type) [FromJson α] : Field :=
  ⟨name, false, fun j => (fromJson j : Decoded α).map fun _ => ()⟩

/-- A field that is null when absent. -/
def Field.optionally (name : String) (α : Type) [FromJson α] : Field :=
  ⟨name, true, fun j => (fromJson j : Decoded (Option α)).map fun _ => ()⟩

/-- Checks the given members in their order, as far as they are fields. -/
def checkMembers (fields : List Field) : List (String × Json) → Decoded Unit
  | [] => .ok ()
  | (key, j) :: rest => do
    match fields.find? (·.name = key) with
    | some field => field.check j
    | none => pure ()
    checkMembers fields rest

/-- The member of a field among the members of an object. -/
def fieldMember (members : List (String × Json)) (field : Field) : Decoded (String × Json) :=
  match members.lookup field.name with
  | some j => .ok (field.name, j)
  | none =>
    if field.optional then .ok (field.name, .null) else .error (.missingField field.name)

/-- The members of fields given by the items of an array; `total` counts the fields, and `position`
those that came before. -/
def fieldItems (struct : String) (total position : Nat) :
    List Field → List Json → Decoded (List (String × Json))
  | field :: fields, j :: items => do
    field.check j
    return (field.name, j) :: (← fieldItems struct total (position + 1) fields items)
  | _ :: _, [] =>
    .error (.invalidLength position
      ("struct " ++ struct ++ " with " ++ toString total ++
        (if total = 1 then " element" else " elements")))
  | [], [] => .ok []
  | [], _ :: items =>
    .error (.invalidLength (position + items.length + 1) "fewer elements in array")

/-- The members of the structure `struct` with the given fields: one for each field. -/
def fields (struct : String) (fields : List Field) : Json → Decoded (List (String × Json))
  | object members => do
    checkMembers fields members
    fields.mapM (fieldMember members)
  | array items => fieldItems struct fields.length 0 fields items
  | j => .error (.invalidType j.found ("struct " ++ struct))

/-- The value of a field among the members of a structure. -/
def field {α : Type} [FromJson α] (members : List (String × Json)) (name : String) : Decoded α :=
  fromJson ((members.lookup name).getD .null)

/-- The name and the content of a tagged value: a string, or an object with one member. -/
def variant (names : List String) (j : Json) : Decoded (String × Option Json) := do
  let (name, content) ← match j with
    | string s => .ok (s, none)
    | object [(key, content)] => .ok (key, some content)
    | object _ => .error (.invalidValue .map "map with a single key")
    | j => .error (.invalidType j.found "string or map")
  if name ∈ names then return (name, content) else .error (.unknownVariant name names)

/-- The content of a tagged value that has none. -/
def noContent : Option Json → Decoded Unit
  | none => .ok ()
  | some j => fromJson j

/-- The content of a tagged value that has one. -/
def content {α : Type} [FromJson α] : Option Json → Decoded α
  | none => .error (.invalidType .unitVariant "newtype variant")
  | some j => fromJson j

/-- The value that a name without content stands for; `nameOf` names each of the values `all`. -/
def constant {α : Type} (all : List α) (nameOf : α → String) (j : Json) : Decoded α := do
  let names := all.map nameOf
  let (name, content) ← variant names j
  noContent content
  match all.find? (nameOf · = name) with
  | some a => return a
  | none => .error (.unknownVariant name names)

end Json

end Discography
