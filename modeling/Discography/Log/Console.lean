import Discography.Log.Entry
import Discography.Time.Calendar

/-!
# Log lines on a console

## Main definitions

* `Log.Console`: a sink that prints entries
* `Log.Console.text`: what is printed for an entry
-/

namespace Discography.Log

/-- A sink that prints entries for developers. -/
structure Console where
  minLevel : Level := .info

namespace Console

/-- The form of the fields of an entry. -/
def fieldsText (fields : List (String × String)) : String :=
  "\x7b" ++ ", ".intercalate (fields.map fun (key, v) => Text.quote key ++ ": " ++ Text.quote v) ++
    "\x7d"

/-- What is printed for an entry made at an instant: a line for the message, and one for the fields
if there are any. -/
def text (c : Console) (instant : Int) (e : Entry) : String :=
  if c.minLevel ≤ e.level then
    "[" ++ Time.stampText instant ++ "] " ++ e.level.upperName ++ " " ++ e.target ++ ": " ++
      e.message ++ "\n" ++
      (if e.fields.isEmpty then "" else "  Fields: " ++ fieldsText e.fields ++ "\n")
  else ""

end Console

end Discography.Log
