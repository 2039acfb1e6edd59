import Discography.Error
import Discography.Sql.Dialect

/-!
# Quotation

Names, texts and values in the notation of statements, and back. What quoting writes, reading
accepts; a value also has other spellings, which reading accepts too.

## Main definitions

* `Name.quote` and `Name.read`: names in quotes
* `Dialect.escape`: the inside of a quoted text
* `Dialect.literal` and `Dialect.readLiteral`: values as literals
-/

namespace Discography

/-- The name in quotes. -/
def Name.quote (name : String) : String := String.ofList (Name.encode name.toList)

/-- The name that a quoted name stands for. -/
def Name.read (text : String) : Result String :=
  match Name.decode? text.toList with
  | some name => .ok (String.ofList name)
  | none => .error (.decode (.notQuotedName text))

namespace Dialect

/-- A text as it stands between quotes. -/
def escape (d : Dialect) (text : String) : String := String.ofList (d.style.encode text.toList)

/-- The literal of a value. -/
def literal (d : Dialect) (v : Value) : Result String :=
  match v.sql d.style with
  | .ok sql => .ok sql.text
  | .error cause => .error (.noLiteral cause)

/-- The value of a literal. -/
def readLiteral (d : Dialect) (text : String) : Result Value :=
  (Literal.read d.style text).mapError (.decode ∘ .literal)

end Dialect

end Discography
