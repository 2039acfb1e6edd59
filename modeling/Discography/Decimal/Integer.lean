/-!
# Integer numerals

Decimal numerals of 64-bit signed integers: an optional sign and at least one ASCII digit. A
numeral is read from left to right, so the first fault decides the error.

## Main definitions

* `Decimal.readInt64`: the integer a numeral stands for
* `Decimal.writeInt`: the numeral without needless zeros or plus sign
-/

namespace Discography.Decimal

/-- Why a text is no numeral of a 64-bit signed integer. -/
inductive IntegerError where
  | empty
  | badDigit
  | tooLarge
  | tooSmall
  deriving DecidableEq

/-- The wording of the error. -/
def IntegerError.message : IntegerError → String
  | .empty => "cannot parse integer from empty string"
  | .badDigit => "invalid digit found in string"
  | .tooLarge => "number too large to fit in target type"
  | .tooSmall => "number too small to fit in target type"

/-- The value of an ASCII digit. -/
def digitValue? (c : Char) : Option Nat :=
  if '0' ≤ c && c ≤ '9' then some (c.toNat - 48) else none

/-- Continues the number `total` by the digits of a text. A character that is no digit, or a total
beyond `bound`, ends the reading with `.badDigit` or with `overflow`, whichever comes first. -/
def readDigits (bound : Nat) (overflow : IntegerError) (total : Nat) :
    List Char → Except IntegerError Nat
  | [] => .ok total
  | c :: rest =>
    match digitValue? c with
    | none => .error .badDigit
    | some d =>
      if 10 * total + d ≤ bound then readDigits bound overflow (10 * total + d) rest
      else .error overflow

/-- Reads a numeral without sign, of which at least one digit is required. -/
def readMagnitude (bound : Nat) (overflow : IntegerError) (text : List Char) :
    Except IntegerError Nat :=
  if text.isEmpty then .error .badDigit else readDigits bound overflow 0 text

/-- The 64-bit signed integer that a numeral stands for. -/
def readInt64 (text : List Char) : Except IntegerError Int64 :=
  match text with
  | [] => .error .empty
  | '-' :: rest => do return Int64.ofInt (-(← readMagnitude (Nat.pow 2 63) .tooSmall rest))
  | '+' :: rest => do return Int64.ofInt (← readMagnitude (Nat.pow 2 63 - 1) .tooLarge rest)
  | text => do return Int64.ofInt (← readMagnitude (Nat.pow 2 63 - 1) .tooLarge text)

/-- The decimal digits of a natural number. -/
def writeNat (n : Nat) : List Char := Nat.toDigits 10 n

/-- The numeral of an integer. -/
def writeInt (i : Int) : List Char :=
  if i < 0 then '-' :: writeNat i.natAbs else writeNat i.natAbs

example : writeInt (-120) = ['-', '1', '2', '0'] := by decide

example : readInt64 ['-', '0', '7'] = .ok (-7) := by rfl

example : readInt64 ['-'] = .error .badDigit := by rfl

end Discography.Decimal
