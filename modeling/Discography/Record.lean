import Discography.Error
import Discography.Value

/-!
# Records

What a fetched row becomes: a value, or an object of named records in the order of the projection. A
record is decoded into a typed value by way of its JSON form.

## Main definitions

* `Record`: the type
* `Record.get?`, `Record.path?`: the record under a key and under a chain of keys
* `Record.decode`: the typed value of a record
-/

namespace Discography

/-- A materialized row. -/
inductive Record where
  | value (v : Value)
  | object (fields : List (String × Record))

namespace Record

/-- The record under a key; the first one if a key is repeated. -/
def get? (key : String) : Record → Option Record
  | value _ => none
  | object fields => fields.lookup key

/-- The keys of an object, in order. -/
def keys : Record → List String
  | value _ => []
  | object fields => fields.map Prod.fst

/-- The record under a chain of keys. -/
def path? (r : Record) (keys : List String) : Option Record :=
  keys.foldlM (fun r key => r.get? key) r

/-- The value of a record that is no object. -/
def value? : Record → Option Value
  | value v => some v
  | object _ => none

/-- The record of the null value. -/
def isNull : Record → Bool
  | value v => v.isNull
  | object _ => false

end Record

namespace Value

mutual

/-- The JSON form of a value; bytes are an array of numbers. -/
def json : Value → Json
  | .null => .null
  | .boolean b => .boolean b
  | .integer i => .integer i.toInt
  | .real x => if x.isFinite then .real x else .null
  | .text s => .string s
  | .blob bytes => toJson bytes
  | .list items => .array (itemsJson items)

/-- The JSON forms of the values of a list. -/
def itemsJson : List Value → List Json
  | [] => []
  | v :: rest => v.json :: itemsJson rest

end

end Value

namespace Record

mutual

/-- The JSON form of a record, with its fields in order. -/
def json : Record → Json
  | value v => v.json
  | object fields => .object (fieldsJson fields)

/-- The JSON forms of the fields of an object. -/
def fieldsJson : List (String × Record) → List (String × Json)
  | [] => []
  | (key, r) :: rest => (key, r.json) :: fieldsJson rest

end

/-- The typed value of a record. -/
def decode {α : Type} [FromJson α] (r : Record) : Result α :=
  (fromJson r.json.canonical).mapError fun cause => .decode (.document cause)

end Record

instance : ToJson Value := ⟨Value.json⟩
instance : ToJson Record := ⟨Record.json⟩

end Discography
