import Discography.Text.Unprinted
import Discography.Text.Hex

/-!
# Quoted text

The quoted form in which messages show a text or a character, so that every character of the
message can be told apart: the mark and the backslash are escaped, five controls have letters of
their own, and other characters without a printed form are shown by their code point.

## Main definitions

* `Text.quote`: a text between double quotes
* `Text.quoteChar`: a character between single quotes
-/

namespace Discography.Text

/-- The form of `c` between two marks `mark`. -/
def escapeIn (mark c : Char) : List Char :=
  if c = '\x00' then ['\\', '0']
  else if c = '\t' then ['\\', 't']
  else if c = '\n' then ['\\', 'n']
  else if c = '\r' then ['\\', 'r']
  else if c = '\\' || c = mark then ['\\', c]
  else if isUnprinted c then
    ['\\', 'u', '\x7b'] ++ Nat.toDigits 16 c.toNat ++ ['\x7d']
  else [c]

/-- The text between double quotes. -/
def quote (text : String) : String :=
  String.ofList ('"' :: text.toList.flatMap (escapeIn '"') ++ ['"'])

/-- The character between single quotes. -/
def quoteChar (c : Char) : String :=
  String.ofList ('\'' :: escapeIn '\'' c ++ ['\''])

end Discography.Text

namespace Discography.Hex

/-- The wording of a decoding error; a bad byte is shown as the character of that number. -/
def DecodeError.message : DecodeError → String
  | .oddLength => "Odd number of digits"
  | .badDigit byte position =>
    "Invalid character " ++ Text.quoteChar (Char.ofNat byte.toNat) ++ " at position " ++
      toString position

end Discography.Hex
