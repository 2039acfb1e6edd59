import Discography.Sql.Lexeme
import Discography.Value

/-!
# Literals

The lexemes of a value. Every value has them but those that hold a real without a finite value.

## Main definitions

* `Value.sql`: the lexemes of a value
-/

namespace Discography

/-- A real that has no literal because it is infinite or not a number. -/
structure NoLiteral where
  value : Binary64
  deriving DecidableEq

/-- The wording of the error. -/
def NoLiteral.message (e : NoLiteral) : String :=
  "Cannot escape " ++ (Value.real e.value).kind ++ " value " ++
    String.ofList (Decimal.Layout.plain.write e.value) ++ " as a SQL literal"

namespace Value

mutual

/-- The lexemes of a value, with texts in the given style. -/
def sql (style : TextStyle) : Value → Except NoLiteral Sql
  | .null => .ok [.word "NULL"]
  | .boolean b => .ok [.word (if b then "TRUE" else "FALSE")]
  | .integer i => .ok [.integer i.toInt]
  | .real x => if x.isFinite then .ok [.real x] else .error ⟨x⟩
  | .text s => .ok [.text style s]
  | .blob bytes => .ok [.blob bytes]
  | .list items => do return Sql.parens (Sql.commas (← itemsSql style items))

/-- The lexemes of each value of a list. -/
def itemsSql (style : TextStyle) : List Value → Except NoLiteral (List Sql)
  | [] => .ok []
  | v :: rest => do
    let first ← sql style v
    return first :: (← itemsSql style rest)

end

end Value

end Discography
