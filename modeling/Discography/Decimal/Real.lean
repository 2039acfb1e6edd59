import Discography.Decimal.Binary64
import Discography.Decimal.Integer

/-!
# Real numerals

Decimal numerals of binary64 numbers: an optional sign, digits with at most one point and at least
one digit, and an optional exponent; or the name of an infinity or of the non-number, in any case.
The number nearest to the numeral is read, and infinity beyond the largest number.

## Main definitions

* `Decimal.readReal`: the number a numeral stands for
-/

namespace Discography.Decimal

/-- The value of a text of ASCII digits, read onto `total`. -/
def digitsValue (total : Nat) (digits : List Char) : Nat :=
  digits.foldl (fun n c => 10 * n + (c.toNat - 48)) total

/-- An ASCII digit. -/
def isDigit (c : Char) : Bool := '0' ≤ c && c ≤ '9'

/-- A nonempty text of digits, as a number. -/
def readNatural? (text : List Char) : Option Nat :=
  if !text.isEmpty && text.all isDigit then some (digitsValue 0 text) else none

/-- The text after the significand: nothing, or `e` and a signed number. -/
def readExponent? : List Char → Option Int
  | [] => some 0
  | c :: rest =>
    if c = 'e' || c = 'E' then
      match rest with
      | '-' :: digits => (readNatural? digits).map fun n => -(n : Int)
      | '+' :: digits => (readNatural? digits).map fun n => (n : Int)
      | digits => (readNatural? digits).map fun n => (n : Int)
    else none

/-- The magnitude word of `significand * 10 ^ exponent`. Numbers from `10 ^ 310` on are infinite
and numbers below `10 ^ -330` are zero, however large the exponent. -/
def wordOfNumeral (significand : Nat) (exponent : Int) : Nat :=
  let point := (writeNat significand).length + exponent
  if significand = 0 || point < -330 then 0
  else if 310 < point then Binary64.infinityWord
  else Binary64.wordOfDecimal significand exponent

/-- The magnitude word of a numeral without sign that consists of digits. -/
def readDecimal? (text : List Char) : Option Nat :=
  let whole := text.takeWhile isDigit
  let rest := text.dropWhile isDigit
  let (places, tail) :=
    match rest with
    | '.' :: more => (more.takeWhile isDigit, more.dropWhile isDigit)
    | rest => ([], rest)
  if whole.isEmpty && places.isEmpty then none
  else (readExponent? tail).map fun exponent =>
    wordOfNumeral (digitsValue 0 (whole ++ places)) (exponent - places.length)

/-- The magnitude word of a numeral without sign. -/
def readUnsigned? (text : List Char) : Option Nat :=
  let name := String.ofList (text.map Char.toLower)
  if name = "inf" || name = "infinity" then some Binary64.infinityWord
  else if name = "nan" then some (Binary64.infinityWord + Nat.pow 2 51)
  else readDecimal? text

/-- The number that a numeral stands for. -/
def readReal (text : List Char) : Option Binary64 :=
  match text with
  | '-' :: rest => (readUnsigned? rest).map (.ofWord true)
  | '+' :: rest => (readUnsigned? rest).map (.ofWord false)
  | text => (readUnsigned? text).map (.ofWord false)

/-- The wording of the error that a text is no numeral. -/
def badRealMessage (text : List Char) : String :=
  if text.isEmpty then "cannot parse float from empty string" else "invalid float literal"

end Discography.Decimal
